import Covenant.Proofs.World.Built
import Covenant.Workflow

/-!
# What the crew's work is put together from

The worker and the arbiter tell and ask, keep drafts and a grade, and have plain effects on the
world. There is one lemma for each operation, which says that it is put together from these. What
they show the models about a file, and the taking of a file, are left out here.
-/

namespace Covenant

open Conversation

/-- The scenes differ at most in parts in `F`, in the scripts that are left and in the trace. -/
def Scene.Sim {σ : Type} (F : σ → σ → Prop) (s s' : Scene σ) : Prop :=
  F s.focus s'.focus ∧ s.world.Sim s'.world

namespace Built

variable {σ α : Type} {F : σ → σ → Prop} {B : (α : Type) → Act σ α → Prop}

theorem focus_bind {f : σ → Act σ α} (hf : ∀ x, Built (Scene.Sim F) B α (f x))
    (h : ∀ x x', F x x' → f x' = f x) : Built (Scene.Sim F) B α (Act.focus >>= f) :=
  .look (f := fun s => f s.focus) (fun s => hf s.focus) fun _ _ hs => h _ _ hs.1

theorem world_bind {f : World → Act σ α} (hf : ∀ w, Built (Scene.Sim F) B α (f w))
    (h : ∀ w scripts trace, f { w with scripts := scripts, trace := trace } = f w) :
    Built (Scene.Sim F) B α (get >>= fun s => f s.world) := by
  refine .look (fun s => hf s.world) ?_
  rintro s s' ⟨-, scripts, trace, hw⟩
  rw [hw]
  exact h s.world scripts trace

end Built

/-- Operations on a conversation, telling and asking among them. -/
structure Speaks (T : (α : Type) → Act Conversation α → Prop) : Prop where
  tell : ∀ text file, T Unit (tellBoth text file)
  ask : T String Conversation.ask

/-! ## The worker -/

namespace Worker

/-- The workers differ at most in the replies that are left. -/
def SameButScript (w w' : Worker) : Prop :=
  ∃ script, w' = { w with conversation := { w.conversation with script := script } }

/-- What the worker's work is put together from, with the operations in `T` on its conversation. -/
inductive Step (T : (α : Type) → Act Conversation α → Prop) : (α : Type) → Act Worker α → Prop
  | effect {α : Type} {e : Effect α} (h : e.Plain) : Step T α (Act.lift e)
  | setContracts (s : String) : Step T Unit (setContracts s)
  | setHarnesses (s : String) : Step T Unit (setHarnesses s)
  | talk {α : Type} {act : Act Conversation α} (h : T α act) : Step T α (talk act)

abbrev Routine (T : (α : Type) → Act Conversation α → Prop) {α : Type} (act : Act Worker α) :
    Prop := Built (Scene.Sim SameButScript) (Step T) α act

variable {α : Type} {T : (α : Type) → Act Conversation α → Prop}

theorem routine_effect {e : Effect α} (h : e.Plain) : Routine T (Act.lift e) := .base (.effect h)

theorem routine_remark (s : String) : Routine T (Act.lift (Effect.remark s)) :=
  routine_effect (Effect.plain_remark s)

theorem routine_settings : Routine T (Act.lift Effect.settings) :=
  routine_effect Effect.plain_settings

theorem routine_setContracts (s : String) : Routine T (setContracts s) := .base (.setContracts s)

theorem routine_setHarnesses (s : String) : Routine T (setHarnesses s) := .base (.setHarnesses s)

/-- The worker is looked at for something else than its conversation. -/
theorem routine_focus_bind {f : Worker → Act Worker α} (hf : ∀ w, Routine T (f w))
    (h : ∀ w c, f { w with conversation := c } = f w) : Routine T (Act.focus >>= f) := by
  refine .focus_bind hf ?_
  rintro w _ ⟨script, rfl⟩
  exact h w _

theorem routine_need {what : Worker → Option String}
    (h : ∀ w c, what { w with conversation := c } = what w) : Routine T (need what) := by
  refine routine_focus_bind (fun w => ?_) fun w c => by rw [h]
  cases what w with
  | some v => exact .pure v
  | none => exact routine_effect (Effect.plain_fail _)

theorem routine_contracts : Routine T (need (·.contracts)) := routine_need fun _ _ => rfl

theorem routine_harnesses : Routine T (need (·.harnesses)) := routine_need fun _ _ => rfl

theorem routine_draftPath (ending : String) : Routine T (draftPath ending) :=
  (routine_need fun _ _ => rfl).bind fun _ => routine_settings.bind fun _ => .pure _

theorem routine_hasNoContracts : Routine T hasNoContracts :=
  routine_focus_bind (fun _ => .ite (fun _ => .pure _) fun _ =>
    routine_contracts.bind fun _ => .pure _) fun _ _ => rfl

theorem routine_listedFunctions : Routine T listedFunctions :=
  routine_contracts.bind fun _ => .pure _

theorem routine_storeSource : Routine T storeSource :=
  (routine_draftPath _).bind fun _ => (routine_remark _).bind fun _ =>
    routine_settings.bind fun _ => (routine_effect (Effect.plain_makeDirectory _)).bind fun _ =>
    (routine_effect (Effect.plain_writeText _ _)).bind fun _ =>
    (routine_need fun _ _ => rfl).bind fun _ => routine_effect (Effect.plain_writeText _ _)

theorem routine_saveContracts : Routine T saveContracts := by
  refine routine_contracts.bind fun _ => .ite (fun _ => ?_) fun _ => .pure _
  exact (routine_setContracts _).bind fun _ => (routine_draftPath _).bind fun _ =>
    (routine_draftPath _).bind fun _ => (routine_draftPath _).bind fun _ =>
    (routine_remark _).bind fun _ => (routine_effect (Effect.plain_writeText _ _)).bind fun _ =>
    (routine_remark _).bind fun _ => routine_effect (Merge.plain_annotate _ _ _)

theorem routine_saveHarnesses : Routine T saveHarnesses := by
  refine routine_harnesses.bind fun _ => .ite (fun _ => ?_) fun _ => .pure _
  refine (routine_remark _).bind fun _ => (routine_draftPath _).bind fun _ =>
    (routine_draftPath _).bind fun annotated =>
    .world_bind (f := fun w => if w.disk.hasFile annotated then _ else _)
      (fun _ => .ite (fun _ => ?_) fun _ => routine_setHarnesses _) fun _ _ _ => rfl
  exact (routine_effect (Effect.plain_writeText _ _)).bind fun _ =>
    (routine_effect (Effect.plain_format _)).bind fun _ =>
    (routine_effect (Effect.plain_openFile _)).bind fun _ =>
    (routine_effect (Effect.plain_appendText _ _)).bind fun _ =>
    (routine_effect (Effect.plain_decode _)).bind fun _ =>
    routine_effect (Effect.plain_appendText _ _)

theorem routine_logCount : Routine T logCount :=
  routine_contracts.bind fun _ => .ite (fun _ => routine_listedFunctions.bind fun _ =>
    routine_effect (Effect.plain_log _)) fun _ => .pure _

theorem plain_sourceText (file : String) : (sourceText file).Plain := by
  refine .ite (fun _ => (Effect.plain_fetch file).bind fun c => ?_) fun _ =>
    Effect.plain_readText file
  cases c.raw? with
  | some s => exact .pure s
  | none => exact Effect.plain_fail _

theorem plain_remarkRefining : remarkRefining.Plain :=
  Effect.plain_settings.bind fun _ => Effect.plain_remark _

section Speaks

variable (h : Speaks T)

include h

theorem routine_tell (text file : String) : Routine T (talk (tellBoth text file)) :=
  .base (.talk (h.tell text file))

theorem routine_ask : Routine T ask := .base (.talk h.ask)

theorem routine_askContracts :
    Routine T (do setContracts (← ask); need (·.contracts) : Act Worker String) :=
  (routine_ask h).bind fun s => (routine_setContracts s).bind fun _ => routine_contracts

theorem routine_draftInvariants : Routine T draftInvariants := by
  refine routine_hasNoContracts.bind fun _ =>
    .ite (fun _ => (routine_remark _).bind fun _ => .pure _) fun _ => ?_
  exact (routine_remark _).bind fun _ => (routine_tell h _ _).bind fun _ =>
    (routine_ask h).bind fun _ => (routine_tell h _ _).bind fun _ => routine_askContracts h

/-- What follows the attachment of the file. -/
theorem routine_drafting :
    Routine T (do
      let _ ← ask
      talk (tellPrompt "worker_closing_refine.txt")
      setContracts (← ask)
      if (← Effect.settings).wantInvariants then setContracts (← draftInvariants)
      need (·.contracts) : Act Worker String) := by
  refine (routine_ask h).bind fun _ => (routine_tell h _ _).bind fun _ =>
    (routine_ask h).bind fun s => (routine_setContracts s).bind fun _ =>
    routine_settings.bind fun _ => .ite (fun _ => ?_) fun _ => routine_contracts
  exact (routine_draftInvariants h).bind fun s => (routine_setContracts s).bind fun _ =>
    routine_contracts

theorem routine_selfReview : Routine T selfReview := by
  refine routine_focus_bind (fun _ => .ite (fun _ => (routine_setContracts _).bind fun _ => .pure _)
    fun _ => ?_) fun _ _ => rfl
  exact (routine_remark _).bind fun _ => (routine_setContracts _).bind fun _ =>
    (routine_tell h _ _).bind fun _ => (routine_ask h).bind fun _ =>
    (routine_tell h _ _).bind fun _ => routine_askContracts h

theorem routine_reviseContracts (instructions : String) :
    Routine T (reviseContracts instructions) :=
  (routine_effect plain_remarkRefining).bind fun _ => (routine_tell h _ _).bind fun _ =>
    (routine_ask h).bind fun _ => (routine_tell h _ _).bind fun _ => routine_askContracts h

theorem routine_draftHarnessesOf (fs : List String) : Routine T (draftHarnessesOf fs) := by
  induction fs with
  | nil => exact .pure _
  | cons f fs ih =>
    exact (routine_tell h _ _).bind fun _ => (routine_ask h).bind fun _ => ih.bind fun _ => .pure _

theorem routine_draftHarnesses : Routine T draftHarnesses := by
  refine routine_focus_bind (fun _ => routine_hasNoContracts.bind fun _ =>
    .ite (fun _ => ?_) fun _ => ?_) fun _ _ => rfl
  · exact (routine_setHarnesses _).bind fun _ => (routine_remark _).bind fun _ => .pure _
  · exact (routine_remark _).bind fun _ => (routine_setHarnesses _).bind fun _ =>
      (routine_tell h _ _).bind fun _ => (routine_ask h).bind fun _ =>
      routine_listedFunctions.bind fun fs => (routine_draftHarnessesOf h fs).bind fun _ =>
      (routine_setHarnesses _).bind fun _ => routine_harnesses

theorem routine_reviseHarnesses (instructions : String) :
    Routine T (reviseHarnesses instructions) :=
  (routine_effect plain_remarkRefining).bind fun _ => (routine_setHarnesses _).bind fun _ =>
    (routine_tell h _ _).bind fun _ => (routine_ask h).bind fun _ =>
    (routine_setHarnesses _).bind fun _ => routine_harnesses

end Speaks

end Worker

/-! ## The arbiter -/

namespace Arbiter

/-- The arbiters differ at most in the replies that are left. -/
def SameButScript (a a' : Arbiter) : Prop :=
  ∃ script, a' = { a with conversation := { a.conversation with script := script } }

/-- What the arbiter's work is put together from, with the operations in `T` on its conversation. -/
inductive Step (T : (α : Type) → Act Conversation α → Prop) : (α : Type) → Act Arbiter α → Prop
  | effect {α : Type} {e : Effect α} (h : e.Plain) : Step T α (Act.lift e)
  | setGrade (g : Int) : Step T Unit (setGrade g)
  | talk {α : Type} {act : Act Conversation α} (h : T α act) : Step T α (talk act)

abbrev Routine (T : (α : Type) → Act Conversation α → Prop) {α : Type} (act : Act Arbiter α) :
    Prop := Built (Scene.Sim SameButScript) (Step T) α act

variable {α : Type} {T : (α : Type) → Act Conversation α → Prop}

theorem routine_effect {e : Effect α} (h : e.Plain) : Routine T (Act.lift e) := .base (.effect h)

theorem routine_remark (s : String) : Routine T (Act.lift (Effect.remark s)) :=
  routine_effect (Effect.plain_remark s)

theorem routine_settings : Routine T (Act.lift Effect.settings) :=
  routine_effect Effect.plain_settings

theorem routine_setGrade (g : Int) : Routine T (setGrade g) := .base (.setGrade g)

/-- The arbiter is looked at for its grade. -/
theorem routine_focus_bind {f : Arbiter → Act Arbiter α} (hf : ∀ a, Routine T (f a))
    (h : ∀ a c, f { a with conversation := c } = f a) : Routine T (Act.focus >>= f) := by
  refine .focus_bind hf ?_
  rintro a _ ⟨script, rfl⟩
  exact h a _

variable (h : Speaks T)

include h

theorem routine_tell (text file : String) : Routine T (talk (tellBoth text file)) :=
  .base (.talk (h.tell text file))

theorem routine_ask : Routine T ask := .base (.talk h.ask)

theorem routine_requestGrade : Routine T requestGrade := by
  have hend : Routine T (do
      let g := (← Act.focus).grade
      if 1 ≤ g && g ≤ 5 then Effect.remark ("\tGrade: " ++ toString g ++ "/5")
      return g : Act Arbiter Int) := by
    refine routine_focus_bind (fun a => ?_) fun _ _ => rfl
    refine .ite (p := (1 ≤ a.grade && a.grade ≤ 5) = true) (fun _ => ?_) fun _ => .pure _
    exact (routine_remark _).bind fun _ => .pure _
  refine (routine_tell h _ _).bind fun _ => (routine_ask h).bind fun reply =>
    .look (fun s => ?_) ?_
  · dsimp only
    cases gradeIn? s.world.digits reply with
    | some g => exact (routine_setGrade g).bind fun _ => hend
    | none => exact hend
  · rintro s s' ⟨-, scripts, trace, hw⟩
    rw [hw]

theorem routine_gradeOf (output : String) : Routine T (gradeOf output) :=
  (routine_effect (Effect.plain_record (.grading _) fun _ => rfl)).bind fun _ =>
    (routine_requestGrade h).bind fun _ =>
    (routine_effect (Effect.plain_record (.graded _ _) fun _ => rfl)).bind fun _ => .pure _

/-- What follows the attachment of the file. -/
theorem routine_judging (contracts : String) :
    Routine T (do
      if (← Effect.settings).wantInvariants then
        talk (tellBoth invariantsNotice "worker_type_invariant.txt")
      let _ ← ask
      gradeOf contracts : Act Arbiter Int) := by
  refine routine_settings.bind fun _ => .ite (fun _ => ?_) fun _ => ?_
  · exact (routine_tell h _ _).bind fun _ => (routine_ask h).bind fun _ =>
      routine_gradeOf h contracts
  · exact (routine_ask h).bind fun _ => routine_gradeOf h contracts

theorem routine_judgeHarnesses (harnesses : String) : Routine T (judgeHarnesses harnesses) :=
  routine_settings.bind fun _ => (routine_remark _).bind fun _ => (routine_setGrade _).bind fun _ =>
    (routine_tell h _ _).bind fun _ => (routine_tell h _ _).bind fun _ =>
    (routine_ask h).bind fun _ => (routine_tell h _ _).bind fun _ => (routine_ask h).bind fun _ =>
    routine_gradeOf h harnesses

theorem routine_judgeAgain (output : String) : Routine T (judgeAgain output) :=
  (routine_remark _).bind fun _ => (routine_setGrade _).bind fun _ =>
    (routine_tell h _ _).bind fun _ => (routine_ask h).bind fun _ => routine_gradeOf h output

theorem routine_advise : Routine T advise :=
  routine_focus_bind (fun _ => .ite (fun _ => .pure _) fun _ => (routine_remark _).bind fun _ =>
    (routine_tell h _ _).bind fun _ => routine_ask h) fun _ _ => rfl

theorem routine_logReasons : Routine T logReasons :=
  routine_focus_bind (fun _ => .ite (fun _ => (routine_tell h _ _).bind fun _ =>
    (routine_ask h).bind fun _ => routine_effect (Effect.plain_log _)) fun _ => .pure _)
    fun _ _ => rfl

theorem routine_compiles : Routine T compiles := by
  have hrun (command : List String) (directory : Option String) :
      Routine T (Act.lift (Effect.record (.run command directory))) :=
    routine_effect (Effect.plain_record (.run _ _) fun _ => rfl)
  have htell (output : String) : Routine T (onInputTooLong (do
      tell (compilerReport output)
      let _ ← ask) (Effect.say (Text.Colour.yellow.paint "Way too faulty... Nevermind") :
        Effect Unit) : Act Arbiter Unit) := by
    refine .tryCatch ((routine_tell h _ _).bind fun _ => (routine_ask h).bind fun _ => .pure _)
      fun stop => ?_
    cases stop with
    | fault f =>
      cases f with
      | inputTooLong => exact routine_effect (Effect.plain_say _)
      | _ => exact .throw _
    | exit n => exact .throw _
  refine (routine_remark _).bind fun _ => routine_settings.bind fun _ =>
    .ite (fun _ => (routine_remark _).bind fun _ => .pure _) fun _ =>
    .look (fun s => ?_) ?_
  · refine (hrun _ _).bind fun _ =>
      .ite (fun _ => (routine_remark _).bind fun _ => .pure _) fun _ => (hrun _ _).bind fun _ => ?_
    cases s.world.tools.kani _ s.world.disk with
    | none => exact routine_effect (Effect.plain_fail _)
    | some output =>
      exact .ite (fun _ => (routine_remark _).bind fun _ => .pure _) fun _ =>
        (htell output).bind fun _ => .pure _
  · rintro s s' ⟨-, scripts, trace, hw⟩
    rw [hw]

end Arbiter

/-! ## The crew -/

namespace Crew

/-- What the crew's work is put together from: that of the worker and of the arbiter, and the
operations in `D`. -/
inductive Step (T : (α : Type) → Act Conversation α → Prop) (D : (α : Type) → Act Crew α → Prop) :
    (α : Type) → Act Crew α → Prop
  | effect {α : Type} {e : Effect α} (h : e.Plain) : Step T D α (Act.lift e)
  | worker {α : Type} {act : Act Worker α} (h : Worker.Routine T act) : Step T D α (byWorker act)
  | arbiter {α : Type} {act : Act Arbiter α} (h : Arbiter.Routine T act) :
      Step T D α (byArbiter act)
  | other {α : Type} {act : Act Crew α} (h : D α act) : Step T D α act

abbrev Routine (T : (α : Type) → Act Conversation α → Prop) (D : (α : Type) → Act Crew α → Prop)
    {α : Type} (act : Act Crew α) : Prop := Built (Scene.Sim fun _ _ => True) (Step T D) α act

variable {α : Type} {T : (α : Type) → Act Conversation α → Prop}
  {D : (α : Type) → Act Crew α → Prop}

theorem routine_effect {e : Effect α} (h : e.Plain) : Routine T D (Act.lift e) := .base (.effect h)

theorem routine_byWorker {act : Act Worker α} (h : Worker.Routine T act) :
    Routine T D (byWorker act) := .base (.worker h)

theorem routine_byArbiter {act : Act Arbiter α} (h : Arbiter.Routine T act) :
    Routine T D (byArbiter act) := .base (.arbiter h)

end Crew

namespace Workflow

open Crew

variable {T : (α : Type) → Act Conversation α → Prop} {D : (α : Type) → Act Crew α → Prop}
  (h : Speaks T)

theorem plain_isAvailable (file : String) : (isAvailable file).Plain := by
  refine .ite (fun _ => .tryCatch ((Effect.plain_fetch file).bind fun _ => .pure _) fun stop => ?_)
    fun _ => Effect.Plain.get_bind (fun _ => .pure _) fun _ _ _ => rfl
  cases stop with
  | fault f =>
    cases f with
    | httpStatus n reason => exact .pure _
    | _ => exact .throw _
  | exit n => exact .throw _

theorem plain_revert (file : String) : (revert file).Plain :=
  (Effect.plain_remark _).bind fun _ => (Effect.plain_log _).bind fun _ =>
    Effect.plain_settings.bind fun _ => .base (.checkout _ _)

theorem plain_skipLongFile : skipLongFile.Plain :=
  (Effect.plain_say _).bind fun _ => (Effect.plain_say _).bind fun _ => Effect.plain_remark _

theorem routine_logGrade (file what : String) (g : Int) :
    Routine T D (Act.lift (logGrade file what g)) := routine_effect (Effect.plain_log _)

include h

theorem routine_logReasons : Routine T D (byArbiter Arbiter.logReasons) :=
  routine_byArbiter (Arbiter.routine_logReasons h)

theorem routine_refine (grade : Int) (n : Nat) : Routine T D (refine grade n) := by
  induction n generalizing grade with
  | zero => exact .pure _
  | succ n ih =>
    refine (routine_byArbiter (Arbiter.routine_advise h)).bind fun instructions =>
      .ite (fun _ => .pure _) fun _ => ?_
    exact (routine_byWorker (Worker.routine_reviseContracts h instructions)).bind fun _ =>
      (routine_byWorker (Worker.routine_selfReview h)).bind fun contracts =>
      (routine_byArbiter (Arbiter.routine_judgeAgain h contracts)).bind fun g => ih g

/-- What follows the first grade of the contracts. -/
theorem routine_rounds (file : String) (initial : Int) :
    Routine T D (do
      logGrade file "initial grade" initial
      byArbiter Arbiter.logReasons
      let (grade, left) ← refine initial maxRounds
      logGrade file "final grade" grade
      Effect.log (file ++ ": number of refinement rounds: " ++ toString (maxRounds + 1 - left))
      byArbiter Arbiter.logReasons
      byWorker Worker.logCount
      return grade : Act Crew Int) := by
  refine (routine_logGrade _ _ _).bind fun _ => (routine_logReasons h).bind fun _ =>
    (routine_refine h initial _).bind fun _ => (routine_logGrade _ _ _).bind fun _ =>
    (routine_effect (Effect.plain_log _)).bind fun _ => (routine_logReasons h).bind fun _ => ?_
  exact (routine_byWorker Worker.routine_logCount).bind fun _ => .pure _

theorem routine_settleHarnesses (file harnesses : String) :
    Routine T D (settleHarnesses file harnesses) := by
  refine (routine_byArbiter (Arbiter.routine_judgeHarnesses h harnesses)).bind fun _ =>
    (routine_logGrade _ _ _).bind fun _ => (routine_logReasons h).bind fun _ =>
    .ite (fun _ => ?_) fun _ => .pure _
  refine (routine_byArbiter (Arbiter.routine_advise h)).bind fun instructions =>
    .ite (fun _ => .pure _) fun _ => ?_
  exact (routine_byWorker (Worker.routine_reviseHarnesses h instructions)).bind fun revised =>
    routine_byArbiter (Arbiter.routine_judgeAgain h revised)

theorem routine_addHarnesses (file : String) : Routine T D (addHarnesses file) := by
  refine (routine_byWorker (Worker.routine_draftHarnesses h)).bind fun harnesses =>
    .ite (fun _ => routine_effect (Effect.plain_log _)) fun _ => ?_
  exact (routine_settleHarnesses h file harnesses).bind fun _ =>
    (routine_logGrade _ _ _).bind fun _ => (routine_logReasons h).bind fun _ =>
    .ite (fun _ => routine_byWorker Worker.routine_saveHarnesses) fun _ => .pure _

theorem routine_replaceSource (file : String) : Routine T D (replaceSource file) := by
  have hcheck (b : Bool) : Routine T D (do
      if b then
        if !(← byArbiter Arbiter.compiles) then revert file : Act Crew Unit) :=
    .ite (fun _ => (routine_byArbiter (Arbiter.routine_compiles h)).bind fun _ =>
      .ite (fun _ => routine_effect (plain_revert file)) fun _ => .pure _) fun _ => .pure _
  have hcopy (annotated : String) (b : Bool) : Routine T D (do
      Effect.copyOnto annotated file
      if b then
        if !(← byArbiter Arbiter.compiles) then revert file : Act Crew Unit) :=
    (routine_effect (Effect.plain_copyOnto _ _)).bind fun _ => hcheck b
  refine (routine_byWorker (Worker.routine_draftPath _)).bind fun annotated =>
    (routine_effect Effect.plain_settings).bind fun st => .look (fun s => ?_) ?_
  · refine .ite (fun _ => .ite (fun _ => ?_) fun _ => hcopy annotated st.checkCompile)
      fun _ => .pure _
    exact (routine_effect (Effect.plain_print _)).bind fun _ =>
      (routine_effect (Effect.plain_print _)).bind fun _ =>
      (routine_effect (Effect.plain_say _)).bind fun _ => hcopy annotated st.checkCompile
  · rintro s s' ⟨-, scripts, trace, hw⟩
    rw [hw]

/-- What follows a draft. -/
theorem routine_rest (file : String) (grade : Int) :
    Routine T D (do
      if grade < passingGrade then
        Effect.remark
          (Text.Colour.yellow.paint "The annotation is not good enough. Skipping the rest")
      else
        byWorker Worker.saveContracts
        if (← Effect.settings).wantHarnesses then addHarnesses file
        replaceSource file : Act Crew Unit) := by
  refine .ite (fun _ => routine_effect (Effect.plain_remark _)) fun _ => ?_
  refine (routine_byWorker Worker.routine_saveContracts).bind fun _ =>
    (routine_effect Effect.plain_settings).bind fun _ =>
    .ite (fun _ => ?_) fun _ => routine_replaceSource h file
  exact (routine_addHarnesses h file).bind fun _ => routine_replaceSource h file

theorem routine_processFiles (hdraft : ∀ file, D Int (draft file)) (files : List String) :
    Routine T D (processFiles files) := by
  have hfile (file : String) : Routine T D (processFile file) := by
    refine (routine_effect (plain_isAvailable file)).bind fun _ => .ite (fun _ => ?_) fun _ =>
      routine_effect (Effect.plain_remark _)
    exact .bind (.base (.other (hdraft file))) fun grade => routine_rest h file grade
  induction files with
  | nil => exact .pure _
  | cons file files ih =>
    refine .bind (.tryCatch (hfile file) fun stop => ?_) fun _ => ih
    cases stop with
    | fault f =>
      cases f with
      | inputTooLong => exact routine_effect plain_skipLongFile
      | _ => exact .throw _
    | exit n => exact .throw _

end Workflow

end Covenant
