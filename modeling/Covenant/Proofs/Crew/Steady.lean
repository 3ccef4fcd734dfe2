import Covenant.Proofs.Crew.Talk

/-!
# A crew at work on a file

Once the file has been shown to both, the worker and the arbiter refine drafts, grade and file them.
A `Plan` says what is to be kept on the way: a stable property of each conversation, and a property
of the world that the events of the work keep. A sound plan is kept through every round, and what
the crew is left with is known wherever the work ends.
-/

namespace Covenant.Crew

open Conversation Workflow

theorem draftPath_apply {name : String} {s : Scene Crew} (h : s.focus.worker.draftName = some name)
    (ending : String) :
    byWorker (Worker.draftPath ending) s = .ok (s.world.settings.draftPath name ending) s := by
  have hw := Worker.draftPath_apply (s := ⟨s.focus.worker, s.world⟩) h ending
  rw [byWorker, Act.zoom, hw]

/-- The run that takes the file back is the only event. -/
theorem follows_revert {P : Event → Prop} {file : String}
    (h : ∀ {directory}, P (.run ["git", "-C", directory, "checkout", file] none)) :
    (revert file).Follows P :=
  (Effect.leads_remark _).follows.bind fun _ => (Effect.leads_log _).follows.bind fun _ =>
    Effect.leads_settings.follows.bind fun _ => Effect.follows_checkout h

/-- What a crew does at work when the conversations of the worker are in `I` and those of the
arbiter in `I'`. -/
inductive Works (I I' : Conversation → Prop) : Event → Prop
  | worker {e : Event} : Said I e → Works I I' e
  | arbiter {e : Event} : Said I' e → Works I I' e
  | write (path : String) (c : Content) : Works I I' (.write path c)
  | run (command : List String) (directory : Option String) : Works I I' (.run command directory)

/-- What is to be kept: the settings, the file of a worker, what the conversations of the worker and
of the arbiter have and the replies they hear, and what the world has during the work and after. -/
structure Plan where
  settings : Settings
  worker : Worker
  heard : Datum → Prop
  said : Conversation → Prop
  heardByArbiter : Datum → Prop
  saidByArbiter : Conversation → Prop
  during : World → Prop
  after : World → Prop

namespace Plan

/-- The crew works by the plan. -/
structure Steady (p : Plan) (s : Scene Crew) : Prop where
  settings : s.world.settings = p.settings
  worker : Worker.Still p.worker p.said s.focus.worker
  arbiter : p.saidByArbiter s.focus.arbiter.conversation
  world : p.during s.world

/-- How the crew is left when its work ends. -/
structure Left (p : Plan) (T : World → Prop) (s : Scene Crew) : Prop where
  settings : s.world.settings = p.settings
  worker : Stopped p.heard p.said s.focus.worker.conversation
  arbiter : Stopped p.heardByArbiter p.saidByArbiter s.focus.arbiter.conversation
  world : T s.world

/-- The operation keeps to the plan. -/
def Kept {α : Type} (p : Plan) (act : Act Crew α) : Prop :=
  Brings p.Steady (fun _ => p.Steady) (fun _ => p.Left p.after) act

/-- The operation ends the work. -/
def Ended (p : Plan) (act : Act Crew Unit) : Prop :=
  Brings p.Steady (fun _ => p.Left p.after) (fun _ => p.Left p.after) act

/-- The plan can be kept. -/
structure Sound (p : Plan) : Prop where
  name : p.worker.draftName.isSome
  worker : Stable p.heard p.said
  arbiter : Stable p.heardByArbiter p.saidByArbiter
  works : ∀ {w w'}, p.during w → w.Follows (Works p.said p.saidByArbiter) w' → p.during w'
  ends : ∀ {w}, p.during w → p.after w
  again : ∀ output, p.Kept (byArbiter (Arbiter.judgeAgain output))
  harnesses : ∀ harnesses, p.Kept (byArbiter (Arbiter.judgeHarnesses harnesses))

variable {α β : Type} {p : Plan} {P : Event → Prop}

theorem Kept.bind {x : Act Crew α} {f : α → Act Crew β} (hx : p.Kept x) (hf : ∀ a, p.Kept (f a)) :
    p.Kept (x >>= f) := Brings.bind hx hf

theorem Kept.pure (a : α) : p.Kept (pure a) := Brings.pure fun _ => id

theorem Kept.ite {q : Prop} [Decidable q] {x y : Act Crew α} (hx : q → p.Kept x)
    (hy : ¬ q → p.Kept y) : p.Kept (if q then x else y) := Brings.ite hx hy

theorem Ended.bind {x : Act Crew α} {f : α → Act Crew Unit} (hx : p.Kept x)
    (hf : ∀ a, p.Ended (f a)) : p.Ended (x >>= f) := Brings.bind hx hf

theorem Ended.ite {q : Prop} [Decidable q] {x y : Act Crew Unit} (hx : q → p.Ended x)
    (hy : ¬ q → p.Ended y) : p.Ended (if q then x else y) := Brings.ite hx hy

namespace Sound

variable (h : p.Sound)

include h

theorem left {s : Scene Crew} (hs : p.Steady s) : p.Left p.after s :=
  ⟨hs.settings, hs.worker.halted, .answered (.same hs.arbiter), h.ends hs.world⟩

theorem ended {act : Act Crew Unit} (hact : p.Kept act) : p.Ended act :=
  fun s hs => (hact s hs).mono (fun _ _ ht => h.left ht) fun _ _ => id

theorem effect {e : Effect α} (he : e.Leads (Works p.said p.saidByArbiter)) :
    p.Kept (Act.lift e) := by
  intro s hs
  have hw {w : World} (hw : s.world.Leads (Works p.said p.saidByArbiter) w) :
      p.Steady { s with world := w } :=
    ⟨hw.settings.trans hs.settings, hs.worker, hs.arbiter, h.works hs.world hw.follows⟩
  exact Act.ends_lift.2 ((he s.world).mono (fun _ w hl => hw hl) fun _ w hl => h.left (hw hl))

theorem byWorker {act : Act Worker α} (hP : ∀ e, P e → Works p.said p.saidByArbiter e)
    (ha : act.Leads p.settings P (Worker.Still p.worker p.said)
      (fun _ => Worker.Still p.worker p.said) (Worker.Halted p.heard p.said)) :
    p.Kept (Crew.byWorker act) := by
  intro s hs
  refine Act.ends_zoom.2 ((ha _ hs.settings hs.worker).mono (fun _ t ht => ?_) fun _ t ht => ?_)
  · exact ⟨ht.2.settings.trans hs.settings, ht.1, hs.arbiter,
      h.works hs.world (ht.2.mono hP).follows⟩
  · exact ⟨ht.2.settings.trans hs.settings, ht.1, .answered (.same hs.arbiter),
      h.ends (h.works hs.world (ht.2.mono hP).follows)⟩

theorem byArbiter {act : Act Arbiter α}
    (ha : act.Leads p.settings (Said p.saidByArbiter) (Arbiter.Still p.saidByArbiter)
      (fun _ => Arbiter.Still p.saidByArbiter)
      (Arbiter.Halted p.heardByArbiter p.saidByArbiter)) :
    p.Kept (Crew.byArbiter act) := by
  intro s hs
  have hl {w : World} (hw : s.world.Leads (Said p.saidByArbiter) w) : p.during w :=
    h.works hs.world (hw.mono fun _ => .arbiter).follows
  refine Act.ends_zoom.2 ((ha _ hs.settings hs.arbiter).mono (fun _ t ht => ?_) fun _ t ht => ?_)
  · exact ⟨ht.2.settings.trans hs.settings, hs.worker, ht.1, hl ht.2⟩
  · exact ⟨ht.2.settings.trans hs.settings, hs.worker.halted, ht.1, h.ends (hl ht.2)⟩

theorem log (line : String) : p.Kept (Act.lift (Effect.log line)) := h.effect (Effect.leads_log _)

theorem logReasons : p.Kept (Crew.byArbiter Arbiter.logReasons) :=
  h.byArbiter (Arbiter.leads_logReasons h.arbiter)

theorem advise : p.Kept (Crew.byArbiter Arbiter.advise) :=
  h.byArbiter (Arbiter.leads_advise h.arbiter)

/-! ## Rounds of refinement -/

theorem refine (grade : Int) (n : Nat) : p.Kept (Workflow.refine grade n) := by
  induction n generalizing grade with
  | zero => exact .pure _
  | succ n ih =>
    refine h.advise.bind fun instructions => .ite (fun _ => .pure _) fun _ => ?_
    refine .bind (h.byWorker (fun _ => .worker)
      (Worker.leads_reviseContracts h.worker instructions)) fun _ => ?_
    refine .bind (h.byWorker (fun _ => .worker)
      ((Worker.leads_selfReview h.worker).post fun _ _ h => h.1)) fun contracts => ?_
    exact (h.again contracts).bind fun g => ih g

/-- What follows the first grade of a draft. -/
theorem rounds (file : String) (initial : Int) :
    p.Kept (do
      logGrade file "initial grade" initial
      Crew.byArbiter Arbiter.logReasons
      let (grade, left) ← Workflow.refine initial maxRounds
      logGrade file "final grade" grade
      Effect.log (file ++ ": number of refinement rounds: " ++ toString (maxRounds + 1 - left))
      Crew.byArbiter Arbiter.logReasons
      Crew.byWorker Worker.logCount
      return grade : Act Crew Int) := by
  refine (h.log _).bind fun _ => h.logReasons.bind fun _ =>
    (h.refine initial maxRounds).bind fun r => ?_
  refine (h.log _).bind fun _ => (h.log _).bind fun _ => h.logReasons.bind fun _ => ?_
  exact (h.byWorker (fun _ => .worker) (Worker.leads_logCount fun _ h => h.halted)).bind
    fun _ => .pure _

theorem settleHarnesses (file harnesses : String) :
    p.Kept (Workflow.settleHarnesses file harnesses) := by
  refine (h.harnesses harnesses).bind fun initial => (h.log _).bind fun _ =>
    h.logReasons.bind fun _ => .ite (fun _ => ?_) fun _ => .pure _
  refine h.advise.bind fun instructions => .ite (fun _ => .pure _) fun _ => ?_
  refine .bind (h.byWorker (fun _ => .worker)
    ((Worker.leads_reviseHarnesses h.worker instructions).post fun _ _ h => h.1)) fun revised => ?_
  exact h.again revised

/-! ## Filing the drafts -/

theorem saveContracts : p.Kept (Crew.byWorker Worker.saveContracts) := by
  obtain ⟨name, hname⟩ := Option.isSome_iff_exists.1 h.name
  refine h.byWorker ?_ (Worker.leads_saveContracts_any hname)
  rintro e ⟨text, _ | c | c⟩
  · exact .write _ _
  · exact .write _ _
  · exact .write _ _

theorem saveHarnesses : p.Kept (Crew.byWorker Worker.saveHarnesses) := by
  obtain ⟨name, hname⟩ := Option.isSome_iff_exists.1 h.name
  refine h.byWorker ?_ (Worker.leads_saveHarnesses hname)
  rintro e (c | _ | c)
  · exact .write _ _
  · exact .run _ _
  · exact .write _ _

theorem addHarnesses (file : String) : p.Kept (Workflow.addHarnesses file) := by
  refine .bind (h.byWorker (fun _ => .worker)
    ((Worker.leads_draftHarnesses h.worker).post fun _ _ h => h.1)) fun harnesses => ?_
  refine .ite (fun _ => h.log _) fun _ => ?_
  refine (h.settleHarnesses file harnesses).bind fun grade => (h.log _).bind fun _ =>
    h.logReasons.bind fun _ => ?_
  exact .ite (fun _ => h.saveHarnesses) fun _ => .pure _

/-! ## Replacing the source -/

/-- The check of the code can cut the arbiter's conversation. -/
theorem compiles {s : Scene Crew} (hs : p.Steady s) :
    Ends (Crew.byArbiter Arbiter.compiles) s (fun _ => p.Left p.during)
      fun _ => p.Left p.during := by
  have hworks : ∀ e, Arbiter.Checks p.saidByArbiter e → Works p.said p.saidByArbiter e := by
    rintro e (he | ⟨command, directory⟩)
    · exact .arbiter he
    · exact .run _ _
  have hleft : ∀ t : Scene Arbiter, Arbiter.Halted p.heardByArbiter p.saidByArbiter t.focus ∧
      s.world.Leads (Arbiter.Checks p.saidByArbiter) t.world →
      p.Left p.during ⟨{ s.focus with arbiter := t.focus }, t.world⟩ := fun t ht =>
    ⟨ht.2.settings.trans hs.settings, hs.worker.halted, ht.1,
      h.works hs.world (ht.2.mono hworks).follows⟩
  exact Act.ends_zoom.2 ((Arbiter.leads_compiles h.arbiter _ hs.settings hs.arbiter).mono
    (fun _ t ht => hleft t ht) fun _ t ht => hleft t ht)

/-- The check, after which the source is taken back if it failed. -/
theorem check (file : String) :
    p.Ended (do if !(← Crew.byArbiter Arbiter.compiles) then revert file) := by
  have hends : ∀ t, p.Left p.during t → p.Left p.after t :=
    fun t ht => ⟨ht.settings, ht.worker, ht.arbiter, h.ends ht.world⟩
  have hrevert : (revert file).Follows (Works p.said p.saidByArbiter) :=
    follows_revert (.run _ _)
  intro s hs
  refine ((h.compiles hs).mono (fun _ _ => id) fun _ => hends).bind fun compiled t ht => ?_
  cases compiled with
  | true => exact hends t ht
  | false =>
    have hw {w : World} (hw : t.world.Follows (Works p.said p.saidByArbiter) w) :
        p.Left p.after { t with world := w } :=
      ⟨hw.settings.trans ht.settings, ht.worker, ht.arbiter, h.ends (h.works ht.world hw)⟩
    exact Act.ends_lift.2 ((hrevert t.world).mono (fun _ w => hw) fun _ w => hw)

theorem replaceSource (file : String) : p.Ended (Workflow.replaceSource file) := by
  have hcopy (annotated : String) :
      (Effect.copyOnto annotated file).Leads (Works p.said p.saidByArbiter) :=
    Effect.leads_copyOnto fun c => .write _ c
  refine .bind (h.byWorker (fun _ => .worker) (Worker.leads_draftPath _)) fun annotated =>
    .bind (h.effect Effect.leads_settings) fun st => ?_
  have hcheck : p.Ended (do
      Effect.copyOnto annotated file
      if st.checkCompile then
        if !(← Crew.byArbiter Arbiter.compiles) then revert file) :=
    .bind (h.effect (hcopy annotated)) fun _ => .ite (fun _ => h.check file)
      fun _ => h.ended (.pure _)
  refine .bind (fun s hs => hs) fun s => .ite (fun _ => .ite (fun _ => ?_) fun _ => hcheck)
    fun _ => h.ended (.pure _)
  exact .bind (h.effect (Effect.leads_print _)) fun _ => .bind (h.effect (Effect.leads_print _))
    fun _ => .bind (h.effect (Effect.leads_say _)) fun _ => hcheck

/-- What follows the last grade of a draft. -/
theorem rest (file : String) (grade : Int) :
    p.Ended (do
      if grade < passingGrade then
        Effect.remark
          (Text.Colour.yellow.paint "The annotation is not good enough. Skipping the rest")
      else
        Crew.byWorker Worker.saveContracts
        if (← Effect.settings).wantHarnesses then Workflow.addHarnesses file
        Workflow.replaceSource file : Act Crew Unit) := by
  refine .ite (fun _ => h.ended (h.effect (Effect.leads_remark _))) fun _ => ?_
  refine .bind h.saveContracts fun _ => .bind (h.effect Effect.leads_settings) fun st => ?_
  exact .ite (fun _ => .bind (h.addHarnesses file) fun _ => h.replaceSource file)
    fun _ => h.replaceSource file

end Sound

end Plan

end Covenant.Crew
