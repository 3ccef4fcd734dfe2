import Covenant.Program
import Covenant.Proofs.World.Built

/-!
# A run of the program

A run takes its settings, hires a crew and greets it, and then goes from file to file. What each of
these keeps is kept by the run (`ends_generate_of`).
-/

namespace Covenant

/-! ## Before there is a crew -/

/-- The second world has the scripts and the events of the first. -/
structure World.Matches (w w' : World) : Prop where
  scripts : w'.scripts = w.scripts
  events : w'.trace.events = w.trace.events

namespace Effect

/-- What a run is put together from before there is a crew. -/
inductive Setting : (α : Type) → Effect α → Prop
  | emit (s : String) : Setting Unit (modifyTrace fun t => { t with out := t.out ++ s })
  | emitError (s : String) : Setting Unit (modifyTrace fun t => { t with err := t.err ++ s })
  | log (line : String) : Setting Unit (log line)
  | change (f : Settings → Settings) : Setting Unit (modifySettings f)
  | openLog : Setting Unit openLog

theorem ends_openLog {w : World} {p : World → Prop} (hp : p w)
    (hopened : ∀ d, p { w with disk := d, log := .opened }) :
    Ends openLog w (fun _ => p) fun _ => p := by
  rw [Ends, openLog, get_bind_apply]
  by_cases hlog : w.log = .closed
  · rw [if_pos hlog]
    exact ends_bind.2 (ends_modifyDisk (fun d _ => hopened d) fun _ _ => hp)
  · rw [if_neg hlog]
    exact hp

/-- The operation takes settings, prints and logs, and does nothing else. -/
abbrev Setup {α : Type} (e : Effect α) : Prop := Built World.Sim Setting α e

variable {α : Type}

theorem Setup.get_bind {f : World → Effect α} (hf : ∀ w, Setup (f w))
    (h : ∀ w scripts trace, f { w with scripts := scripts, trace := trace } = f w) :
    Setup (get >>= f) := by
  refine .look hf ?_
  rintro w _ ⟨scripts, trace, rfl⟩
  exact h w scripts trace

/-- No script is used up and no event is noted. -/
theorem Setup.matches {e : Effect α} (h : Setup e) (w : World) :
    Ends e w (fun _ => w.Matches) fun _ => w.Matches := by
  refine h.brings (fun α e he => ?_) w ⟨rfl, rfl⟩
  cases he with
  | emit s => exact fun _ hw => ⟨hw.scripts, hw.events⟩
  | emitError s => exact fun _ hw => ⟨hw.scripts, hw.events⟩
  | log line => exact fun _ hw => ⟨hw.scripts, hw.events⟩
  | change f => exact fun _ hw => ⟨hw.scripts, hw.events⟩
  | openLog => exact fun _ hw => ends_openLog hw fun _ => ⟨hw.scripts, hw.events⟩

theorem setup_modifySettings (f : Settings → Settings) : Setup (modifySettings f) :=
  .base (.change f)

theorem setup_settings : Setup settings := Setup.get_bind (fun _ => .pure _) fun _ _ _ => rfl

theorem setup_print (s : String) : Setup (print s) := by
  refine Setup.get_bind (fun w => ?_) fun _ _ _ => rfl
  cases printed? w s with
  | some s => exact .base (.emit s)
  | none => exact .throw _

theorem setup_say (s : String) : Setup (say s) := (setup_print s).bind fun _ => setup_print _

theorem setup_complain (s : String) : Setup (complain s) := by
  refine Setup.get_bind (fun w => ?_) fun _ _ _ => rfl
  cases printed? w s with
  | some s => exact .base (.emitError s)
  | none => exact .pure _

theorem setup_decode (c : Content) : Setup (decode c) := by
  unfold decode
  cases c.chars? with
  | some s => exact .pure s
  | none => exact .throw _

end Effect

namespace Settings

open Effect

theorem setup_takeOption (d : Ini.Document) (name : String)
    (set : Option String → Settings → Settings) : Setup (takeOption d name set) := by
  unfold takeOption
  cases d.get? sectionName name.toList with
  | error f => exact .throw _
  | ok v =>
    cases v with
    | none => exact .pure _
    | some v => exact setup_modifySettings _

theorem setup_takeValue (d : Ini.Document) (name : String)
    (set : String → Settings → Settings) : Setup (takeValue d name set) := by
  unfold takeValue
  cases d.get? sectionName name.toList with
  | error f => exact .throw _
  | ok v =>
    cases v with
    | none => exact .pure _
    | some v =>
      cases v with
      | none => exact .throw _
      | some v => exact setup_modifySettings _

theorem setup_takeDocument (d : Ini.Document) : Setup (takeDocument d) := by
  have ho := @setup_takeOption d
  have hv := @setup_takeValue d
  refine Setup.get_bind (fun w => ?_) fun _ _ _ => rfl
  refine (hv _ _).bind fun _ => (ho _ _).bind fun _ => (ho _ _).bind fun _ => (hv _ _).bind fun _ =>
    (hv _ _).bind fun _ => (hv _ _).bind fun _ => (hv _ _).bind fun _ => (hv _ _).bind fun _ =>
    (hv _ _).bind fun _ => (hv _ _).bind fun _ => (ho _ _).bind fun _ => (ho _ _).bind fun _ =>
    (hv _ _).bind fun _ => setup_modifySettings _

theorem setup_loadFile (path : String) : Setup (loadFile path) := by
  refine Setup.get_bind (fun w => ?_) fun _ _ _ => rfl
  cases w.disk.load path with
  | error f =>
    cases f with
    | missing p => exact (setup_say _).bind fun _ => .throw _
    | _ => exact .throw _
  | ok content =>
    refine (setup_decode content).bind fun text => ?_
    cases Ini.parse sectionName text with
    | error f => exact .throw _
    | ok d => exact setup_takeDocument d

theorem setup_loadEntry (e : Entry) : Setup (loadEntry e) := by
  cases e with
  | text path => exact .ite (fun _ => .pure _) fun _ => setup_loadFile path
  | bare => exact .throw _
  | empty => exact .throw _

theorem setup_overrideName (e : Entry) (set : Entry → Settings → Settings) :
    Setup (overrideName e set) := .ite (fun _ => .pure _) fun _ => setup_modifySettings _

theorem setup_overrideText (e : Entry) (set : String → Settings → Settings) :
    Setup (overrideText e set) := by
  cases e with
  | text s => exact .ite (fun _ => .pure _) fun _ => setup_modifySettings _
  | bare => exact .throw _
  | empty => exact .throw _

theorem setup_configure (o : Overrides) : Setup (configure o) :=
  Setup.get_bind (fun _ => (setup_loadEntry _).bind fun _ => (setup_overrideText _ _).bind fun _ =>
    (setup_overrideName _ _).bind fun _ => (setup_overrideName _ _).bind fun _ =>
    (setup_overrideText _ _).bind fun _ => (setup_overrideText _ _).bind fun _ =>
    (setup_overrideText _ _).bind fun _ => (setup_modifySettings _).bind fun _ => .base .openLog)
    fun _ _ _ => rfl

theorem setup_configureFrom (arguments : List String) : Setup (configureFrom arguments) := by
  refine Setup.get_bind (fun w => ?_) fun _ _ _ => rfl
  cases CommandLine.parse w.digits arguments with
  | run a => exact setup_configure _
  | help => exact (setup_print _).bind fun _ => .throw _
  | refused f =>
    exact (setup_complain _).bind fun _ => (setup_complain _).bind fun _ => .throw _

end Settings

namespace Program

open Effect

theorem setup_printSettings : Setup printSettings := by
  have hlines (ls : List String) : Setup (forIn ls PUnit.unit fun line _ => do
      say line
      return .yield PUnit.unit) := by
    induction ls with
    | nil => exact .pure _
    | cons l ls ih =>
      rw [List.forIn_cons]
      refine .bind (.bind (setup_say l) fun _ => .pure _) fun r => ?_
      cases r with
      | done b => exact .pure b
      | yield b => exact ih
  exact setup_settings.bind fun _ => (hlines _).bind fun _ => .pure _

/-! ## From the settings to the files -/

section Run

variable {α : Type}

/-- An operation on the crew that is there. -/
theorem ends_byCrew {act : Act Crew α} {crew : Crew} {w : World}
    {Q : α → Scene (Option Crew) → Prop} {E : Stop → Scene (Option Crew) → Prop}
    (h : Ends act ⟨crew, w⟩ (fun a t => Q a ⟨some t.focus, t.world⟩)
      fun e t => E e ⟨some t.focus, t.world⟩) : Ends (byCrew act) ⟨some crew, w⟩ Q E := by
  show Ends (Act.zoom (·.getD crew) (fun c _ => some c) act) ⟨some crew, w⟩ Q E
  exact Act.ends_zoom.2 h

/-- Whether the output is made plain makes no difference to the history. -/
theorem ends_styled {σ : Type} {act : Act σ Unit} {s : Scene σ} {T : World → Prop}
    (hT : ∀ w b, T w → T { w with plain := b })
    (h : Ends act { s with world := { s.world with plain := !s.world.terminal } }
      (fun _ t => T t.world) fun _ t => T t.world) :
    Ends (styled act) s (fun _ t => T t.world) fun _ t => T t.world := by
  unfold Ends styled
  cases hact : act { s with world := { s.world with plain := !s.world.terminal } } with
  | ok a t => exact hT _ _ (h.of_ok hact)
  | error e t => exact hT _ _ (h.of_error hact)

/-- A run takes its settings, hires a crew, greets it, and goes from file to file. -/
theorem ends_generate_of {T : World → Prop} {p q : Scene Crew → Prop} (arguments : List String)
    {crew : Option Crew} {w : World} (hT : ∀ w b, T w → T { w with plain := b })
    (hsetup : ∀ w', w.Matches w' → T w')
    (hhire : ∀ w', w.Matches w' → Ends Crew.hire w' (fun crew w => p ⟨crew, w⟩) fun _ => T)
    (hgreet : Brings p (fun _ => q) (fun _ s => T s.world) Crew.greet)
    (hfiles : ∀ files, Brings q (fun _ s => T s.world) (fun _ s => T s.world)
      (Workflow.processFiles files)) :
    Ends (generate arguments) ⟨crew, w⟩ (fun _ t => T t.world) fun _ t => T t.world := by
  refine ends_tryCatch.2 ((ends_styled hT ?_).mono (fun _ _ => id) fun e t ht => ?_)
  · have hquiet {α : Type} {e : Effect α} (he : Setup e) :
        Brings (fun s : Scene (Option Crew) => w.Matches s.world)
          (fun _ s => w.Matches s.world) (fun _ s => T s.world) (Act.lift e) := by
      intro s hs
      have htrans {w' : World} (h : s.world.Matches w') : w.Matches w' :=
        ⟨h.scripts.trans hs.scripts, h.events.trans hs.events⟩
      exact Act.ends_lift.2 ((he.matches s.world).mono (fun _ _ => htrans)
        fun _ _ h => hsetup _ (htrans h))
    have hstaff : Brings (fun s : Scene (Option Crew) => w.Matches s.world)
        (fun _ s => ∃ crew, s.focus = some crew ∧ p ⟨crew, s.world⟩) (fun _ s => T s.world) staff :=
      fun s hs => ends_bind.2 (Act.ends_lift.2 ((hhire s.world hs).mono
        (fun crew _ h => ⟨crew, rfl, h⟩) fun _ _ => id))
    have hbegin : Brings (fun s : Scene (Option Crew) => ∃ crew, s.focus = some crew ∧
        p ⟨crew, s.world⟩) (fun _ s => ∃ crew, s.focus = some crew ∧ q ⟨crew, s.world⟩)
        (fun _ s => T s.world) (byCrew Crew.greet) := by
      rintro ⟨_, w'⟩ ⟨crew, rfl, hs⟩
      exact ends_byCrew ((hgreet _ hs).mono (fun _ t ht => ⟨t.focus, rfl, ht⟩) fun _ _ => id)
    have hwork : Brings (fun s : Scene (Option Crew) => ∃ crew, s.focus = some crew ∧
        q ⟨crew, s.world⟩) (fun _ s => T s.world) (fun _ s => T s.world)
        (do byCrew (Workflow.processFiles (← Effect.settings).files)) := by
      rintro ⟨_, w'⟩ ⟨crew, rfl, hs⟩
      exact ends_bind.2 (ends_byCrew (hfiles w'.settings.files _ hs))
    have hrun : Brings (fun s : Scene (Option Crew) => w.Matches s.world) (fun _ s => T s.world)
        (fun _ s => T s.world) (do
          let w : World := (← get).world
          Effect.log (w.clock ++ " start annotating")
          staff
          byCrew Crew.greet
          byCrew (Workflow.processFiles (← Effect.settings).files)) :=
      .get_bind fun _ _ => .bind (hquiet (.base (.log _))) fun _ => hstaff.bind fun _ =>
        hbegin.bind fun _ => hwork
    refine Brings.bind (hquiet (Settings.setup_configureFrom arguments)) (fun _ => ?_) _
      (⟨rfl, rfl⟩ : w.Matches { w with plain := !w.terminal })
    refine .bind (hquiet setup_settings) fun st => .ite (fun _ => ?_) fun _ => hrun
    exact .bind (hquiet setup_printSettings) fun _ => hrun
  · cases e with
    | fault f =>
      cases f with
      | interrupted => exact ht
      | _ => exact ht
    | _ => exact ht

end Run

end Program

end Covenant
