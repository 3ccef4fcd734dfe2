import Covenant.Proofs.Conversation.Repeat
import Covenant.Proofs.Crew.Steps

/-!
# Work that waits out replies that pass

More replies that pass, in the worker's script or the arbiter's, lead to the same work on the files:
two crews that go from file to file differ in the replies that are left (`patient_processFiles`).
-/

namespace Covenant

namespace Conversation

/-- Two runs of the operation, the second one with more replies that pass, go the same way. -/
def Patient (past : List Event) (α : Type) (act : Act Conversation α) : Prop :=
  ∀ N, Mirrors (Scene.Lags past Lags N) act

variable {past : List Event}

theorem patient_setSystem (text file : String) : Patient past Unit (setSystem text file) :=
  fun _ => mirrors_setSystem like_lags text file

theorem patient_dropMarked : Patient past Unit dropMarked := fun _ => mirrors_dropMarked

theorem patient_attachWith (text path : String) : Patient past Unit (attachWith text path) :=
  fun _ => mirrors_attachWith like_lags text path

theorem patient_markLast : Patient past Unit (Act.modifyFocus markLast) :=
  fun _ => mirrors_change like_lags fun _ _ => rfl

theorem patient_greet : Patient past String greet :=
  fun N => (mirrors_tellBoth like_lags _ _).bind fun _ => mirrors_ask N

theorem speaks_patient : Speaks (Patient past) where
  tell text file _ := mirrors_tellBoth like_lags text file
  ask := mirrors_ask

end Conversation

open Conversation

/-! ## The worker -/

namespace Worker

/-- The second worker is the first with `k` more replies left. -/
def Lags (k : Nat) (w w' : Worker) : Prop :=
  ∃ c, w' = { w with conversation := c } ∧ w.conversation.Lags k c

variable {α : Type} {past : List Event}

theorem mirrors_routine {act : Act Worker α} (h : Routine (Patient past) act) (N : Nat) :
    Mirrors (Scene.Lags past Lags N) act := by
  refine Built.mirrors h ?_ fun α act hstep => ?_
  · rintro ⟨w, v⟩ ⟨_, v'⟩ ⟨n, k, -, hv, _, rfl, script, rfl, -⟩
    exact ⟨⟨script, rfl⟩, hv.sim⟩
  · cases hstep with
    | effect he => exact mirrors_effect he
    | setContracts s =>
      refine mirrors_modifyFocus ?_
      rintro k w _ ⟨c, rfl, hc⟩
      exact ⟨c, rfl, hc⟩
    | setHarnesses s =>
      refine mirrors_modifyFocus ?_
      rintro k w _ ⟨c, rfl, hc⟩
      exact ⟨c, rfl, hc⟩
    | talk ht =>
      refine mirrors_zoom ht ?_
      rintro k w _ ⟨c, rfl, hc⟩
      exact ⟨k, 0, rfl, hc, fun i d d' hd => ⟨d', rfl, hd⟩⟩

theorem mirrors_take (file : String) (N : Nat) : Mirrors (Scene.Lags past Lags N) (take file) := by
  refine (mirrors_effect Effect.plain_settings).bind fun st =>
    .bind (mirrors_modifyFocus ?_) fun _ =>
    (mirrors_effect (plain_sourceText file)).bind fun text =>
    .bind (mirrors_modifyFocus ?_) fun _ =>
    mirrors_lift fun n => Effect.mirrors_record (fun e => .note e) _
  · rintro k w _ ⟨c, rfl, hc⟩
    exact ⟨c, rfl, hc⟩
  · rintro k w _ ⟨c, rfl, hc⟩
    exact ⟨c, rfl, hc⟩

theorem routine_greet : Routine (Patient past) greet :=
  .bind (.base (.talk (patient_setSystem _ _))) fun _ => .base (.talk patient_greet)

theorem routine_presentSource : Routine (Patient past) presentSource :=
  routine_settings.bind fun _ => (routine_remark _).bind fun _ =>
    .bind (.base (.talk patient_dropMarked)) fun _ => (routine_draftPath _).bind fun path =>
    .bind (.base (.talk (patient_attachWith _ path))) fun _ => .base (.talk patient_markLast)

theorem routine_draftContracts : Routine (Patient past) draftContracts := by
  refine routine_focus_bind (fun w => .ite (fun _ => ?_) fun _ => ?_) fun _ _ => rfl
  · exact (routine_setContracts _).bind fun _ => (routine_remark _).bind fun _ => .pure _
  · exact (routine_remark _).bind fun _ => (routine_setContracts _).bind fun _ =>
      routine_storeSource.bind fun _ => .bind (.base (.talk (patient_setSystem _ _))) fun _ =>
      (routine_tell speaks_patient _ _).bind fun _ => routine_presentSource.bind fun _ =>
      routine_drafting speaks_patient

end Worker

/-! ## The arbiter -/

namespace Arbiter

/-- The second arbiter is the first with `k` more replies left. -/
def Lags (k : Nat) (a a' : Arbiter) : Prop :=
  ∃ c, a' = { a with conversation := c } ∧ a.conversation.Lags k c

variable {α : Type} {past : List Event}

theorem mirrors_routine {act : Act Arbiter α} (h : Routine (Patient past) act) (N : Nat) :
    Mirrors (Scene.Lags past Lags N) act := by
  refine Built.mirrors h ?_ fun α act hstep => ?_
  · rintro ⟨a, v⟩ ⟨_, v'⟩ ⟨n, k, -, hv, _, rfl, script, rfl, -⟩
    exact ⟨⟨script, rfl⟩, hv.sim⟩
  · cases hstep with
    | effect he => exact mirrors_effect he
    | setGrade g =>
      refine mirrors_modifyFocus ?_
      rintro k a _ ⟨c, rfl, hc⟩
      exact ⟨c, rfl, hc⟩
    | talk ht =>
      refine mirrors_zoom ht ?_
      rintro k a _ ⟨c, rfl, hc⟩
      exact ⟨k, 0, rfl, hc, fun i d d' hd => ⟨d', rfl, hd⟩⟩

theorem routine_greet : Routine (Patient past) greet :=
  .bind (.base (.talk (patient_setSystem _ _))) fun _ => .base (.talk patient_greet)

theorem routine_judgeContracts (path contracts : String) :
    Routine (Patient past) (judgeContracts path contracts) :=
  routine_settings.bind fun _ => (routine_remark _).bind fun _ => (routine_setGrade _).bind fun _ =>
    .bind (.base (.talk (patient_setSystem _ _))) fun _ =>
    .bind (.base (.talk patient_dropMarked)) fun _ =>
    .bind (.base (.talk (patient_attachWith _ path))) fun _ =>
    .bind (.base (.talk patient_markLast)) fun _ => routine_judging speaks_patient contracts

end Arbiter

/-! ## The crew -/

namespace Crew

/-- The second crew is the first with `k` more replies left. -/
def Lags (k : Nat) (crew crew' : Crew) : Prop :=
  ∃ i j, i + j = k ∧ crew.worker.Lags i crew'.worker ∧ crew.arbiter.Lags j crew'.arbiter

/-- Two runs of the operation, the second one with more replies that pass, go the same way. -/
def Patient (past : List Event) (α : Type) (act : Act Crew α) : Prop :=
  ∀ N, Mirrors (Scene.Lags past Lags N) act

variable {α : Type} {past : List Event}

theorem patient_byWorker {act : Act Worker α}
    (h : ∀ N, Mirrors (Scene.Lags past Worker.Lags N) act) : Patient past α (byWorker act) := by
  refine fun N => mirrors_zoom h ?_
  rintro k crew crew' ⟨i, j, hk, hw, ha⟩
  exact ⟨i, j, hk, hw, fun i w w' hw => ⟨i, j, rfl, hw, ha⟩⟩

theorem patient_byArbiter {act : Act Arbiter α}
    (h : ∀ N, Mirrors (Scene.Lags past Arbiter.Lags N) act) : Patient past α (byArbiter act) := by
  refine fun N => mirrors_zoom h ?_
  rintro k crew crew' ⟨i, j, hk, hw, ha⟩
  exact ⟨j, i, by omega, ha, fun j a a' ha => ⟨i, j, Nat.add_comm i j, hw, ha⟩⟩

theorem patient_routine {act : Act Crew α}
    (h : Routine (Conversation.Patient past) (Patient past) act) : Patient past α act := by
  intro N
  refine Built.mirrors h ?_ fun α act hstep => ?_
  · rintro s s' ⟨n, k, -, hw, -⟩
    exact ⟨trivial, hw.sim⟩
  · cases hstep with
    | effect he => exact mirrors_effect he
    | worker hw => exact patient_byWorker (Worker.mirrors_routine hw) N
    | arbiter ha => exact patient_byArbiter (Arbiter.mirrors_routine ha) N
    | other hd => exact hd N

theorem patient_greet : Patient past Unit greet :=
  patient_routine ((routine_byWorker Worker.routine_greet).bind fun _ =>
    (routine_byArbiter Arbiter.routine_greet).bind fun _ => .pure _)

end Crew

namespace Workflow

open Crew

variable {past : List Event}

theorem patient_draft (file : String) : Crew.Patient past Int (draft file) := by
  have htake : Crew.Patient past Unit (byWorker (Worker.take file)) :=
    patient_byWorker (Worker.mirrors_take file)
  refine patient_routine (.bind (.base (.other htake)) fun _ => ?_)
  exact (routine_byWorker Worker.routine_draftContracts).bind fun _ =>
    (routine_byWorker (Worker.routine_selfReview speaks_patient)).bind fun contracts =>
    (routine_byWorker (Worker.routine_draftPath _)).bind fun path =>
    (routine_byArbiter (Arbiter.routine_judgeContracts path contracts)).bind fun initial =>
    routine_rounds speaks_patient file initial

/-- The work on the files goes the same way with more replies that pass. -/
theorem patient_processFiles (files : List String) : Crew.Patient past Unit (processFiles files) :=
  patient_routine (routine_processFiles speaks_patient patient_draft files)

end Workflow

end Covenant
