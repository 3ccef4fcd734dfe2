import Covenant.Proofs.Workflow.Replacement
import Covenant.Proofs.World.Exact

/-!
# Taking a source back

A source that was replaced is checked, and the arbiter is told what the verifier reports. How that
talk ends decides what comes next (`Arbiter.goesOn`): the source is taken back when there was an
answer or the report was too long, and in no other case, as every other stop of the talk ends the
work on the file with the annotated source in place (`Workflow.processFile_reverts`).
-/

namespace Covenant

open Conversation Crew Text

/-! ## The check -/

/-- The run of the verifier. -/
def Settings.checkRun (st : Settings) : Event :=
  .run ["timeout", "40", "scripts/run-kani.sh"] (some st.sourceDir)

/-- The run that takes the file back. -/
def Settings.revertRun (st : Settings) (file : String) : Event :=
  .run ["git", "-C", st.sourceDir, "checkout", file] none

/-- The code has not been checked since the first world. -/
def World.Unchecked (w v : World) : Prop :=
  ∃ es, v.trace.events = w.trace.events ++ es ∧ w.settings.checkRun ∉ es

theorem World.Does.unchecked {es : List Event} {w v : World} (h : w.Does es v)
    (hes : w.settings.checkRun ∉ es) : w.Unchecked v := ⟨es, h.events, hes⟩

theorem World.Follows.of_does {es : List Event} {w v : World} (h : w.Does es v) :
    w.Follows (fun _ => True) v :=
  ⟨h.settings, h.host, h.log, es, h.events, fun _ _ => trivial⟩

theorem World.Unchecked.trans {w u v : World} (h : w.Unchecked u) (hst : u.settings = w.settings)
    (h' : u.Unchecked v) : w.Unchecked v := by
  obtain ⟨es, hes, hno⟩ := h
  obtain ⟨es', hes', hno'⟩ := h'
  refine ⟨es ++ es', by rw [hes', hes, List.append_assoc], ?_⟩
  rw [List.mem_append, not_or]
  exact ⟨hno, hst ▸ hno'⟩

/-- Taking a file back is one run, and cannot fail. -/
theorem Workflow.ends_revert (file : String) (w : World) :
    Ends (revert file) w
      (fun _ v => v.trace.events = w.trace.events ++ [w.settings.revertRun file])
      fun _ _ => False := by
  refine (Effect.does_remark (by decide +kernel) w).bind fun _ u hu => ?_
  show u.trace.events ++ [u.settings.revertRun file] = _
  rw [hu.events, List.append_nil, hu.settings]

namespace Arbiter

/-- What the arbiter is told about code that does not compile. -/
def report (output : String) : Act Arbiter Unit := do
  tell (compilerReport output)
  let _ ← ask

/-- Whether the work goes on after a report that ended so. -/
def goesOn : Except Stop Unit → Bool
  | .ok _ => true
  | .error x => x == .fault .inputTooLong

theorem leads_report {st : Settings} (output : String) :
    (report output).Leads st (Said fun _ => True) (fun _ => True) (fun _ _ => True)
      fun _ => True := by
  have hask : (ask : Act Arbiter String).Leads st (Said fun _ => True) (fun _ => True)
      (fun _ _ => True) fun _ => True :=
    (leads_ask stable_true).mono (fun _ => id) (fun _ => id) (fun _ _ => id) fun _ _ => trivial
  have htell : (tell (compilerReport output)).Leads st (Said fun _ => True) (fun _ => True)
      (fun _ _ => True) fun _ => True :=
    (leads_tell stable_true _).mono (fun _ => id) (fun _ => id) (fun _ _ => id) fun _ _ => trivial
  exact htell.bind fun _ => hask.bind fun _ => .pure fun _ => id

theorem leads_of_report {output : String} {a a' : Arbiter} {v v' : World} {ρ : Except Stop Unit}
    (h : (report output).runOn a v = (ρ, a', v')) : v.Leads (Said fun _ => True) v' :=
  Act.of_runOn (T := fun _ u => v.Leads (Said fun _ => True) u)
    ((leads_report output ⟨a, v⟩ rfl trivial).mono (fun _ _ ht => ht.2) fun _ _ ht => ht.2) h

/-- The runs of a check. -/
def checkRuns (st : Settings) : List Event := [.run ["which", "timeout"] none, st.checkRun]

/-- The verifier finds an error in the code that is on the disk. -/
def Rejects (w : World) (output : String) : Prop :=
  w.tools.kani w.settings.sourceDir w.disk = some output ∧ reportsError output = true

/-- What becomes of a check of which the arbiter was told, with `ρ` at the end and in the world
`v`. -/
def Concluded (ρ : Except Stop Unit) (v : World) : Except Stop Bool → World → Prop
  | .ok ok, w => ok = false ∧ goesOn ρ = true ∧ v.Does [] w
  | .error x, w => ρ = .error x ∧ goesOn ρ = false ∧ w = v

/-- How a check ends: the verifier was not run, or it was, and if it found an error, then the
arbiter was told. -/
def CheckEnds (w : World) (r : Except Stop Bool) (t : Scene Arbiter) : Prop :=
  w.Unchecked t.world ∨ ∃ a v, w.Does (checkRuns w.settings) v ∧ ∀ output, Rejects w output →
    ∃ ρ v', (report output).runOn a v = (ρ, t.focus, v') ∧ Concluded ρ v' r t.world

/-- A report that is too long is passed over, and any other stop ends the check. -/
theorem ends_report (output : String) (t : Scene Arbiter) :
    Ends (onInputTooLong (report output)
        (Effect.say (Colour.yellow.paint "Way too faulty... Nevermind") : Effect Unit)) t
      (fun _ u => ∃ ρ v, (report output).runOn t.focus t.world = (ρ, u.focus, v) ∧
        Concluded ρ v (.ok false) u.world)
      fun x u => ∃ ρ v, (report output).runOn t.focus t.world = (ρ, u.focus, v) ∧
        Concluded ρ v (.error x) u.world := by
  unfold onInputTooLong
  rw [ends_tryCatch, ends_iff]
  refine ⟨fun a u hu => ⟨.ok (), u.world, ?_, rfl, rfl, .trace rfl⟩, fun x u hu => ?_⟩
  · unfold Act.runOn
    rw [hu]
  · have hx : (report output).runOn t.focus t.world = (.error x, u.focus, u.world) := by
      unfold Act.runOn
      rw [hu]
    by_cases hlong : x = .fault .inputTooLong
    · subst hlong
      -- the message that is printed instead is plain, so printing it cannot fail
      exact Act.ends_lift.2 ((Effect.does_say (by decide +kernel) u.world).mono
        (fun _ v hv => ⟨_, u.world, hx, rfl, rfl, hv⟩) fun _ _ => False.elim)
    · have hstop : Concluded (.error x) u.world (.error x) u.world :=
        ⟨rfl, beq_eq_false_iff_ne.2 hlong, rfl⟩
      cases x with
      | exit n => exact ⟨_, _, hx, hstop⟩
      | fault f =>
        cases f with
        | inputTooLong => exact absurd rfl hlong
        | _ => exact ⟨_, _, hx, hstop⟩

/-- Code that is found wrong is reported, and the check returns if the work goes on after that. -/
theorem brings_compiles (w : World) :
    Brings (fun s : Scene Arbiter => w.Does [] s.world) (fun ok t => CheckEnds w (.ok ok) t)
      (fun x t => CheckEnds w (.error x) t) compiles := by
  have hremark {text : String} (h : setsTitle text.toList = false) {es : List Event} :
      Brings (fun s : Scene Arbiter => w.Does es s.world) (fun _ t => w.Does es t.world)
        (fun x t => CheckEnds w (.error x) t) (Act.lift (Effect.remark text)) := fun s hs =>
    Act.ends_lift.2 ((Effect.does_remark h s.world).mono
      (fun _ v hv => List.append_nil es ▸ hs.trans hv) fun _ _ => False.elim)
  have hskip {text : String} (h : setsTitle text.toList = false) {es : List Event}
      (hes : w.settings.checkRun ∉ es) :
      Brings (fun s : Scene Arbiter => w.Does es s.world) (fun ok t => CheckEnds w (.ok ok) t)
        (fun x t => CheckEnds w (.error x) t) (do Act.lift (Effect.remark text); return true) :=
    (hremark h).bind fun _ => .pure fun _ ht => .inl (ht.unchecked hes)
  have hrun {e : Event} {es : List Event} :
      Brings (fun s : Scene Arbiter => w.Does es s.world) (fun _ t => w.Does (es ++ [e]) t.world)
        (fun x t => CheckEnds w (.error x) t) (Act.lift (Effect.record e)) :=
    fun s hs => hs.trans (.noting s.world e)
  refine (hremark (by decide +kernel)).bind fun _ => .value_bind
    (fun _ ht => Act.settings_apply ht.settings) (.ite (fun _ => ?_) fun _ => ?_)
  · exact hskip (by decide +kernel) (by simp)
  refine .get_bind fun s hs => hrun.bind fun _ => .ite (fun _ => ?_) fun _ => ?_
  · exact hskip (by decide +kernel) (by simp [Settings.checkRun])
  -- from here on the verifier has been run, so the code counts as checked
  have hkani : s.world.tools.kani w.settings.sourceDir s.world.disk =
      w.tools.kani w.settings.sourceDir w.disk := by rw [hs.disk, ← congrArg Host.tools hs.host]
  have hfine {r : Except Stop Bool} {t : Scene Arbiter} {v : World}
      (ht : w.Does (checkRuns w.settings) v) (h : ∀ output, ¬ Rejects w output) :
      CheckEnds w r t := .inr ⟨t.focus, v, ht, fun output hr => absurd hr (h output)⟩
  refine hrun.bind fun _ => ?_
  rw [hkani]
  cases hout : w.tools.kani w.settings.sourceDir w.disk with
  | none =>
    refine fun t ht => hfine ht fun output hr => ?_
    cases hout.symm.trans hr.1
  | some output =>
    refine .ite (fun hpass => ?_) fun _ t ht => ?_
    · refine (hremark (by decide +kernel)).bind fun _ => .pure fun t ht => hfine ht ?_
      rintro other ⟨hother, herror⟩
      obtain rfl := Option.some.inj (hout.symm.trans hother)
      rw [herror] at hpass
      cases hpass
    · have hreport {r : Except Stop Bool} {u : Scene Arbiter}
          (h : ∃ ρ v, (report output).runOn t.focus t.world = (ρ, u.focus, v) ∧
            Concluded ρ v r u.world) : CheckEnds w r u := by
        refine .inr ⟨t.focus, t.world, ht, fun other hr => ?_⟩
        obtain rfl := Option.some.inj (hout.symm.trans hr.1)
        exact h
      exact ends_bind.2 ((ends_report output t).mono (fun _ _ hu => hreport hu)
        fun _ _ hu => hreport hu)

end Arbiter

/-! ## The replaced source -/

/-- The command that is run, and its directory. -/
def Event.run? : Event → Option (List String × Option String)
  | .run command directory => some (command, directory)
  | _ => none

theorem run_mem_iff {es : List Event} {command : List String} {directory : Option String} :
    .run command directory ∈ es ↔ (command, directory) ∈ es.filterMap Event.run? := by
  rw [List.mem_filterMap]
  refine ⟨fun h => ⟨_, h, rfl⟩, ?_⟩
  rintro ⟨e, he, hrun⟩
  cases e with
  | run command directory =>
    cases hrun
    exact he
  | _ => cases hrun

/-- The program that is run. -/
def Event.program? (e : Event) : Option String := e.run?.bind (·.1.head?)

/-- No program is run but the formatter. -/
def Event.BeforeCheck (e : Event) : Prop := e.program? = none ∨ e.program? = some "rustfmt"

namespace Event.BeforeCheck

variable {e : Event}

theorem ne_checkRun (h : e.BeforeCheck) (st : Settings) : e ≠ st.checkRun := by
  rintro rfl
  exact absurd h (by simp [BeforeCheck, Settings.checkRun, program?, run?])

theorem ne_revertRun (h : e.BeforeCheck) (st : Settings) (file : String) :
    e ≠ st.revertRun file := by
  rintro rfl
  exact absurd h (by simp [BeforeCheck, Settings.revertRun, program?, run?])

theorem of_said {I : Conversation → Prop} (h : Said I e) : e.BeforeCheck := by
  cases h with
  | request _ => exact .inl rfl
  | wait _ => exact .inl rfl
  | close => exact .inl rfl

theorem of_prepares {st : Settings} {file : String} (h : Prepares st file e) : e.BeforeCheck := by
  cases h with
  | takes h =>
    cases h with
    | fetch => exact .inl rfl
    | take text => exact .inl rfl
  | drafts h =>
    cases h with
    | said h => exact of_said h
    | copy c => exact .inl rfl
  | grading output => exact .inl rfl

theorem of_savesContracts {st : Settings} {name text : String}
    (h : Worker.SavesContracts st name text e) : e.BeforeCheck := by
  cases h with
  | contracts => exact .inl rfl
  | annotated c => exact .inl rfl
  | within c => exact .inl rfl

theorem of_savesHarnesses {st : Settings} {name : String}
    (h : Worker.SavesHarnesses st name e) : e.BeforeCheck := by
  cases h with
  | harnesses c => exact .inl rfl
  | format => exact .inr rfl
  | annotated c => exact .inl rfl

end Event.BeforeCheck

theorem World.Leads.unchecked {w v : World} (h : w.Leads Event.BeforeCheck v) : w.Unchecked v := by
  obtain ⟨es, hes, hall, -⟩ := h.events
  exact ⟨es, hes, fun hm => (hall _ hm).ne_checkRun _ rfl⟩

namespace Crew

/-- The ledger of the work on a file, up to the check. -/
def uncheckedLedger (st : Settings) (file : String) (w : World) : Ledger st file where
  holds _ v := w.Leads Event.BeforeCheck v
  mono h _ := h
  leads h hl := h.trans (hl.mono fun _ => .of_prepares)
  graded _ _ _ h := h.trans (.record (.inl rfl) fun _ => rfl)

/-- The source was replaced by `c`, and not checked. -/
structure InPlace (file : String) (before : List Event) (c : Content) (w v : World) : Prop where
  follows : w.Follows (fun _ => True) v
  events : v.trace.events = w.trace.events ++ (before ++ [.write file c])
  before : ∀ e ∈ before, e.BeforeCheck
  read : v.disk.read file = .ok c

theorem InPlace.unchecked {file : String} {before : List Event} {c : Content} {w v : World}
    (h : InPlace file before c w v) : w.Unchecked v := by
  refine ⟨_, h.events, fun hm => ?_⟩
  rcases List.mem_append.1 hm with hm | hm
  · exact (h.before _ hm).ne_checkRun _ rfl
  · cases List.mem_singleton.1 hm

/-- How the work on a file ends: without a check, or with a check of the replaced source, and if
that found an error, with a report that decides whether the source is taken back. -/
def Checked (file : String) (w : World) (r : Except Stop Unit) (t : Scene Crew) : Prop :=
  w.Unchecked t.world ∨ ∃ before c u a v, InPlace file before c w u ∧
    u.Does (Arbiter.checkRuns u.settings) v ∧ ∀ output, Arbiter.Rejects u output →
      ∃ ρ v', (Arbiter.report output).runOn a v = (ρ, t.focus.arbiter, v') ∧
        (Arbiter.goesOn ρ = true ∧ r = .ok () ∧
            t.world.trace.events = v'.trace.events ++ [w.settings.revertRun file] ∨
          Arbiter.goesOn ρ = false ∧ r = ρ ∧ t.world = v')

variable {file : String} {w : World}

theorem InPlace.of_leads {v : World} {d : Disk} {c : Content} (h : w.Leads Event.BeforeCheck v)
    (hd : v.disk.write file c = .ok d) :
    ∃ before, InPlace file before c w ({ v with disk := d }.noting (.write file c)) := by
  obtain ⟨before, hes, hbefore, -⟩ := h.events
  refine ⟨before, ((h.mono fun _ _ => trivial).trans (.write trivial hd)).follows, ?_, hbefore,
    Disk.read_write_self hd⟩
  show v.trace.events ++ [_] = _
  rw [hes, List.append_assoc]

section InPlace

variable {before : List Event} {c : Content} {u : World} (h : InPlace file before c w u)
  (hst : u.settings = w.settings)

include h hst

/-- The source stays when nothing is said against it. -/
theorem InPlace.checked_of_pass {a : Arbiter} {t : Scene Crew}
    (hend : Arbiter.CheckEnds u (.ok true) ⟨a, t.world⟩) : Checked file w (.ok ()) t := by
  refine hend.imp (h.unchecked.trans hst) ?_
  rintro ⟨a, v, hv, hreport⟩
  refine ⟨before, c, u, a, v, h, hv, fun output hr => ?_⟩
  obtain ⟨ρ, v', -, hfalse, -⟩ := hreport output hr
  cases hfalse

/-- It is taken back after a report on which the work goes on. -/
theorem InPlace.checked_of_report {t : Scene Crew} {v : World}
    (hend : Arbiter.CheckEnds u (.ok false) ⟨t.focus.arbiter, v⟩)
    (ht : t.world.trace.events = v.trace.events ++ [w.settings.revertRun file]) :
    Checked file w (.ok ()) t := by
  rcases hend with hend | ⟨a, v₁, hv₁, hreport⟩
  · obtain ⟨es, hes, hno⟩ := h.unchecked.trans hst hend
    refine .inl ⟨es ++ [w.settings.revertRun file], ?_, ?_⟩
    · rw [ht, hes, List.append_assoc]
    · simpa [Settings.checkRun, Settings.revertRun] using hno
  · refine .inr ⟨before, c, u, a, v₁, h, hv₁, fun output hr => ?_⟩
    obtain ⟨ρ, v', hrun, -, hgoes, hdoes⟩ := hreport output hr
    refine ⟨ρ, v', hrun, .inl ⟨hgoes, rfl, ht.trans ?_⟩⟩
    rw [hdoes.events, List.append_nil]

/-- It stays when the report is stopped in any other way. -/
theorem InPlace.checked_of_stop {x : Stop} {t : Scene Crew}
    (hend : Arbiter.CheckEnds u (.error x) ⟨t.focus.arbiter, t.world⟩) :
    Checked file w (.error x) t := by
  refine hend.imp (h.unchecked.trans hst) ?_
  rintro ⟨a, v, hv, hreport⟩
  refine ⟨before, c, u, a, v, h, hv, fun output hr => ?_⟩
  obtain ⟨ρ, v', hrun, rfl, hstops, hworld⟩ := hreport output hr
  exact ⟨_, v', hrun, .inr ⟨hstops, rfl, hworld⟩⟩

end InPlace

/-- A replaced source that is checked. -/
theorem brings_check {A : Worker → Prop} :
    Brings (Act.At w.settings (Has (w.settings.nameOf file) A)
        fun v => ∃ before c, InPlace file before c w v)
      (fun _ t => Checked file w (.ok ()) t) (fun x t => Checked file w (.error x) t) (do
        if w.settings.checkCompile then
          if !(← byArbiter Arbiter.compiles) then Workflow.revert file) := by
  refine .ite (fun _ s hs => ?_) fun _ => .pure fun s hs => ?_
  · obtain ⟨before, c, hreplaced⟩ := hs.world
    have hcompiles := Arbiter.brings_compiles s.world ⟨s.focus.arbiter, s.world⟩ (.trace rfl)
    have hleads := Arbiter.leads_compiles stable_true ⟨s.focus.arbiter, s.world⟩ hs.settings trivial
    refine ends_bind.2 (Act.ends_zoom.2 ((hcompiles.and hleads).mono (fun ok t ht => ?_)
      fun _ _ ht => hreplaced.checked_of_stop hs.settings ht.1))
    obtain ⟨hend, -, hl⟩ := ht
    cases ok with
    | true => exact hreplaced.checked_of_pass hs.settings hend
    | false =>
      refine Act.ends_lift.2 ((Workflow.ends_revert file t.world).mono (fun _ u hu => ?_)
        fun _ _ => False.elim)
      rw [hl.settings, hs.settings] at hu
      exact hreplaced.checked_of_report hs.settings hend hu
  · obtain ⟨before, c, hreplaced⟩ := hs.world
    exact .inl hreplaced.unchecked

/-- The crew works on the file, with the worker in `A`, and has run nothing but the formatter. -/
abbrev AtWork (file : String) (w : World) (A : Worker → Prop) : Scene Crew → Prop :=
  Act.At w.settings (Has (w.settings.nameOf file) A) (w.Leads Event.BeforeCheck)

/-- The annotated file is copied, and then the code is checked. -/
theorem brings_replaceSource_checked {A : Worker → Prop} :
    Brings (AtWork file w A) (fun _ t => Checked file w (.ok ()) t)
      (fun x t => Checked file w (.error x) t) (Workflow.replaceSource file) := by
  refine brings_replaceSource_of (fun h hl => h.trans (hl.mono fun _ => False.elim))
    (fun v hv _ _ => ?_) brings_check (fun _ hs => .inl hs.unchecked)
    fun _ _ hs => .inl hs.unchecked
  refine Effect.ends_copyOnto (fun d c _ hd => ?_) fun _ _ => .inl hv.unchecked
  obtain ⟨before, hbefore⟩ := InPlace.of_leads hv hd
  exact ⟨before, c, hbefore⟩

/-- What the worker saves runs nothing but the formatter. -/
theorem brings_save {act : Act Worker Unit} {P : Event → Prop} {A D : Worker → Prop}
    (hP : ∀ e, P e → e.BeforeCheck) (h : ∀ w₀ : Worker, w₀.Named (w.settings.nameOf file) →
      act.Leads w.settings P (w₀.Still fun _ => True) (fun _ => w₀.Still fun _ => True) D) :
    Brings (AtWork file w A) (fun _ => AtWork file w fun _ => True)
      (fun _ t => w.Leads Event.BeforeCheck t.world) (byWorker act) := by
  have hleads : (byWorker act).Leads w.settings P (Has (w.settings.nameOf file) A)
      (fun _ => Has (w.settings.nameOf file) fun _ => True) fun _ => True :=
    leads_ofStill fun w₀ hw => (h w₀ hw).post fun _ _ hs => ⟨hs, trivial⟩
  exact (hleads.brings fun hw hl => hw.trans (hl.mono hP)).mono (fun _ => id) (fun _ _ => id)
    fun _ _ ht => ht.world

theorem brings_processFile_checked :
    Brings (Act.At w.settings (fun _ => True) (w.Leads Event.BeforeCheck))
      (fun _ t => Checked file w (.ok ()) t) (fun x t => Checked file w (.error x) t)
      (Workflow.processFile file) := by
  have hstop {x : Stop} {t : Scene Crew} (ht : w.Leads Event.BeforeCheck t.world) :
      Checked file w (.error x) t := .inl ht.unchecked
  have hquiet {α : Type} {e : Effect α} (he : e.Leads Event.BeforeCheck) {J : Crew → Prop} :
      Brings (Act.At w.settings J (w.Leads Event.BeforeCheck))
        (fun _ => Act.At w.settings J (w.Leads Event.BeforeCheck))
        (fun x t => Checked file w (.error x) t) (Act.lift e) := fun s hs =>
    Act.ends_lift.2 ((he s.world).mono (fun _ v hl => ⟨hl.settings.trans hs.settings, hs.focus,
      hs.world.trans hl⟩) fun _ _ hl => hstop (hs.world.trans hl))
  have hremark {J : Crew → Prop} (text : String) :
      Brings (Act.At w.settings J (w.Leads Event.BeforeCheck))
        (fun _ t => Checked file w (.ok ()) t) (fun x t => Checked file w (.error x) t)
        (Act.lift (Effect.remark text)) :=
    (hquiet (Effect.leads_remark text)).mono (fun _ => id) (fun _ _ ht => .inl ht.world.unchecked)
      fun _ _ => id
  have hdraft : Brings (Act.At w.settings (fun _ => True) (w.Leads Event.BeforeCheck))
      (fun _ => AtWork file w fun _ => True) (fun x t => Checked file w (.error x) t)
      (Workflow.draft file) := by
    refine (uncheckedLedger w.settings file w).brings_draft.mono (fun _ => id) ?_ fun _ _ => hstop
    rintro grade t ⟨text, ht⟩
    exact ⟨ht.settings, ⟨ht.focus.1, trivial⟩, ht.world⟩
  have hsave : Brings (AtWork file w fun _ => True) (fun _ => AtWork file w fun _ => True)
      (fun x t => Checked file w (.error x) t) (byWorker Worker.saveContracts) := by
    refine (brings_save ?_ fun w₀ hw => Worker.leads_saveContracts_any (H := fun _ => True) hw).mono
      (fun _ => id) (fun _ _ => id) fun _ _ => hstop
    rintro e ⟨text, he⟩
    exact .of_savesContracts he
  have hharnesses : Brings (AtWork file w fun _ => True)
      (fun _ => AtWork file w fun _ => True) (fun x t => Checked file w (.error x) t)
      (Workflow.addHarnesses file) :=
    ((uncheckedLedger w.settings file w).brings_addHarnesses (Ψ := fun _ => True) (fun _ _ => id)
      fun _ => brings_save (fun _ => .of_savesHarnesses) fun w₀ hw =>
        Worker.leads_saveHarnesses (H := fun _ => True) hw).mono (fun _ => id) (fun _ _ => id)
      fun _ _ => hstop
  refine (hquiet (Workflow.leads_isAvailable (.inl rfl))).bind fun there =>
    .ite (fun _ => hdraft.bind fun grade => ?_) fun _ => hremark _
  refine .ite (fun _ => hremark _) fun _ => hsave.bind fun _ => ?_
  refine .value_bind (fun _ hs => Act.settings_apply hs.settings) (.ite (fun _ => ?_) fun _ => ?_)
  · exact hharnesses.bind fun _ => brings_replaceSource_checked
  · exact brings_replaceSource_checked

end Crew

namespace Workflow

/-- A source that is to be replaced and checked, and a verifier that reports an error. -/
def rejecting : World :=
  { desk { Settings.default with
        sourceDir := "src/"
        wantInvariants := false
        replaceSource := true
        checkCompile := true }
      [("src/a.rs", "fn f() \x7b\x7d\n")] with
    tools := { kani := fun _ _ => some "error: no\n" } }

/-- A crew whose only draft gets the best grade, where this comes of the report. -/
def reporting (answer : Script) : Crew :=
  hearing (replies ["ok", "c", "ok", "_None\n#[requires(true)]\nf\n"])
    (replies ["ok", "5", "fine", "fine"] ++ answer)

end Workflow

end Covenant
