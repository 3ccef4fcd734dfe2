import Covenant.Proofs.Crew.Steps

/-!
# What a crew keeps at work

An invariant of the crew and the world is kept by the work on a file, stopped or not, if it is kept
by what is said and asked, and does not depend on the drafts, the grades and what is noted besides
the requests. It may be another one between the taking of a file and its showing, so it has to be
looked at only where a conversation changes.
-/

namespace Covenant

open Conversation

/-- Telling and asking. -/
inductive Conversation.Speaking : (α : Type) → Act Conversation α → Prop
  | tell (text file : String) : Speaking Unit (tellBoth text file)
  | ask : Speaking String Conversation.ask

theorem Conversation.speaks_speaking : Speaks Speaking := ⟨.tell, .ask⟩

/-! ## The worker -/

namespace Worker

/-- The invariant does not depend on the drafts, nor on what is noted besides requests. -/
structure Files (p : Scene Worker → Prop) : Prop where
  world : ∀ {s w}, p s → s.world.Follows Aside w → p { s with world := w }
  drafts : ∀ {s} (contracts harnesses : Option String), p s →
    p { s with focus := { s.focus with contracts := contracts, harnesses := harnesses } }

/-- The invariant is also kept by what is said and asked. -/
structure Upkeep (p : Scene Worker → Prop) : Prop extends Files p where
  tell : ∀ text file, (talk (tellBoth text file)).Keeps p
  ask : Worker.ask.Keeps p

variable {α : Type} {p : Scene Worker → Prop} {act : Act Worker α}

theorem Routine.keeps {T : (α : Type) → Act Conversation α → Prop} (hact : Routine T act)
    (h : Files p) (hT : ∀ α act, T α act → (talk act).Keeps p) : act.Keeps p := by
  refine hact.brings fun α act hstep => ?_
  cases hstep with
  | effect he => exact Act.keeps_effect h.world he.follows
  | setContracts t => exact fun _ hs => h.drafts (some t) _ hs
  | setHarnesses t => exact fun _ hs => h.drafts _ (some t) hs
  | talk ht => exact hT _ _ ht

theorem Files.keeps (h : Files p) (hact : Routine (fun _ _ => False) act) : act.Keeps p :=
  Routine.keeps hact h fun _ _ => False.elim

theorem Upkeep.keeps (h : Upkeep p) (hact : Routine Speaking act) : act.Keeps p := by
  refine Routine.keeps hact h.toFiles fun α act ht => ?_
  cases ht with
  | tell text file => exact h.tell text file
  | ask => exact h.ask

/-- The invariant can change from `p₀` to `p` when the file is attached. -/
theorem Upkeep.draftContracts (h : Upkeep p) {p₀ : Scene Worker → Prop} (h₀ : Files p₀)
    (hp : ∀ s, p₀ s → p s) (htell : ∀ text file, (talk (tellBoth text file)).Keeps p₀)
    (hsystem : ∀ text file, (talk (setSystem text file)).Keeps p₀) {p₁ p₂ : Scene Worker → Prop}
    (h₁ : Files p₁) (hp₁ : ∀ s, p₁ s → p s)
    (hdrop : Brings p₀ (fun _ => p₁) (fun _ => p) (talk dropMarked))
    (hattach : ∀ text path, Brings p₁ (fun _ => p₂) (fun _ => p) (talk (attachWith text path)))
    (hmark : Brings p₂ (fun _ => p) (fun _ => p) (talk (Act.modifyFocus markLast))) :
    Brings p₀ (fun _ => p) (fun _ => p) Worker.draftContracts := by
  have hstep {α : Type} {act : Act Worker α} (hact : act.Keeps p₀) :
      Brings p₀ (fun _ => p₀) (fun _ => p) act :=
    hact.mono (fun _ => id) (fun _ _ => id) fun _ => hp
  have hremark (t : String) : Brings p₀ (fun _ => p₀) (fun _ => p) (Act.lift (Effect.remark t)) :=
    hstep (h₀.keeps (routine_remark t))
  have hclear : Brings p₀ (fun _ => p₀) (fun _ => p) (setContracts "") :=
    hstep (h₀.keeps (routine_setContracts ""))
  have hpresent : Brings p₀ (fun _ => p) (fun _ => p) presentSource :=
    (hstep (h₀.keeps routine_settings)).bind fun _ => (hremark _).bind fun _ => hdrop.bind fun _ =>
      .bind ((h₁.keeps (routine_draftPath _)).mono (fun _ => id) (fun _ _ => id) fun _ => hp₁)
        fun _ => (hattach _ _).bind fun _ => hmark
  refine Act.brings_focus_bind fun _ _ => .ite (fun _ => ?_) fun _ => ?_
  · exact hclear.bind fun _ => (hremark _).bind fun _ => .pure fun s => hp s
  · exact (hremark _).bind fun _ => hclear.bind fun _ => (hstep (h₀.keeps routine_storeSource)).bind
      fun _ => (hstep (hsystem _ _)).bind fun _ => (hstep (htell _ _)).bind fun _ => hpresent.bind
      fun _ => h.keeps (routine_drafting speaks_speaking)

end Worker

/-! ## The arbiter -/

namespace Arbiter

/-- The invariant does not depend on the grade, nor on what is noted besides requests. -/
structure Files (p : Scene Arbiter → Prop) : Prop where
  world : ∀ {s w}, p s → s.world.Follows Aside w → p { s with world := w }
  grade : ∀ {s} (g : Int), p s → p { s with focus := { s.focus with grade := g } }

/-- The invariant is also kept by what is said and asked. -/
structure Upkeep (p : Scene Arbiter → Prop) : Prop extends Files p where
  tell : ∀ text file, (talk (tellBoth text file)).Keeps p
  ask : Arbiter.ask.Keeps p

variable {α : Type} {p : Scene Arbiter → Prop} {act : Act Arbiter α}

theorem Routine.keeps {T : (α : Type) → Act Conversation α → Prop} (hact : Routine T act)
    (h : Files p) (hT : ∀ α act, T α act → (talk act).Keeps p) : act.Keeps p := by
  refine hact.brings fun α act hstep => ?_
  cases hstep with
  | effect he => exact Act.keeps_effect h.world he.follows
  | setGrade g => exact fun _ hs => h.grade g hs
  | talk ht => exact hT _ _ ht

theorem Files.keeps (h : Files p) (hact : Routine (fun _ _ => False) act) : act.Keeps p :=
  Routine.keeps hact h fun _ _ => False.elim

theorem Upkeep.keeps (h : Upkeep p) (hact : Routine Speaking act) : act.Keeps p := by
  refine Routine.keeps hact h.toFiles fun α act ht => ?_
  cases ht with
  | tell text file => exact h.tell text file
  | ask => exact h.ask

/-- The invariant can change from `p₀` to `p` when the file is attached. -/
theorem Upkeep.judgeContracts (h : Upkeep p) {p₀ : Scene Arbiter → Prop} (h₀ : Files p₀)
    (hp : ∀ s, p₀ s → p s) (hsystem : ∀ text file, (talk (setSystem text file)).Keeps p₀)
    {p₁ p₂ : Scene Arbiter → Prop} (hdrop : Brings p₀ (fun _ => p₁) (fun _ => p) (talk dropMarked))
    (hattach : ∀ text path, Brings p₁ (fun _ => p₂) (fun _ => p) (talk (attachWith text path)))
    (hmark : Brings p₂ (fun _ => p) (fun _ => p) (talk (Act.modifyFocus markLast)))
    (path contracts : String) :
    Brings p₀ (fun _ => p) (fun _ => p) (Arbiter.judgeContracts path contracts) := by
  have hstep {α : Type} {act : Act Arbiter α} (hact : act.Keeps p₀) :
      Brings p₀ (fun _ => p₀) (fun _ => p) act :=
    hact.mono (fun _ => id) (fun _ _ => id) fun _ => hp
  refine (hstep (h₀.keeps routine_settings)).bind fun _ =>
    (hstep (h₀.keeps (routine_remark _))).bind fun _ =>
    (hstep (h₀.keeps (routine_setGrade _))).bind fun _ => (hstep (hsystem _ _)).bind fun _ => ?_
  exact hdrop.bind fun _ => (hattach _ _).bind fun _ => hmark.bind fun _ =>
    h.keeps (routine_judging speaks_speaking contracts)

end Arbiter

/-! ## The crew -/

namespace Crew

/-- What the invariant says of the worker beside this arbiter. -/
abbrev WithArbiter (p : Scene Crew → Prop) (a : Arbiter) (s : Scene Worker) : Prop :=
  p ⟨⟨s.focus, a⟩, s.world⟩

/-- What the invariant says of the arbiter beside this worker. -/
abbrev WithWorker (p : Scene Crew → Prop) (w : Worker) (s : Scene Arbiter) : Prop :=
  p ⟨⟨w, s.focus⟩, s.world⟩

/-- The invariant is kept by what the worker and the arbiter say and ask. -/
structure Upkeep (p : Scene Crew → Prop) : Prop where
  worker : ∀ a, Worker.Upkeep (WithArbiter p a)
  arbiter : ∀ w, Arbiter.Upkeep (WithWorker p w)

variable {α : Type} {p q r : Scene Crew → Prop}

theorem brings_byWorker_beside {act : Act Worker α}
    (h : ∀ a, Brings (WithArbiter p a) (fun _ => WithArbiter q a) (fun _ => WithArbiter r a) act) :
    Brings p (fun _ => q) (fun _ => r) (byWorker act) := fun s hs =>
  Act.ends_zoom.2 (h s.focus.arbiter ⟨s.focus.worker, s.world⟩ hs)

theorem brings_byArbiter_beside {act : Act Arbiter α}
    (h : ∀ w, Brings (WithWorker p w) (fun _ => WithWorker q w) (fun _ => WithWorker r w) act) :
    Brings p (fun _ => q) (fun _ => r) (byArbiter act) := fun s hs =>
  Act.ends_zoom.2 (h s.focus.worker ⟨s.focus.arbiter, s.world⟩ hs)

namespace Upkeep

variable (h : Upkeep p)

include h

theorem keeps {D : (α : Type) → Act Crew α → Prop} {act : Act Crew α}
    (hact : Routine Speaking D act) (hD : ∀ α act, D α act → act.Keeps p) : act.Keeps p := by
  refine hact.brings fun α act hstep => ?_
  cases hstep with
  | effect he =>
    have hworld {s : Scene Crew} {w : World} (hs : p s) (hl : s.world.Follows Aside w) :
        p { s with world := w } :=
      (h.worker s.focus.arbiter).world (s := ⟨s.focus.worker, s.world⟩) hs hl
    exact Act.keeps_effect hworld he.follows
  | worker hw => exact brings_byWorker_beside fun a => (h.worker a).keeps hw
  | arbiter ha => exact brings_byArbiter_beside fun w => (h.arbiter w).keeps ha
  | other hd => exact hD _ _ hd

theorem rest (file : String) (grade : Int) :
    (do
      if grade < Workflow.passingGrade then
        Effect.remark
          (Text.Colour.yellow.paint "The annotation is not good enough. Skipping the rest")
      else
        byWorker Worker.saveContracts
        if (← Effect.settings).wantHarnesses then Workflow.addHarnesses file
        Workflow.replaceSource file : Act Crew Unit).Keeps p :=
  h.keeps (D := fun _ _ => False) (Workflow.routine_rest speaks_speaking file grade)
    fun _ _ => False.elim

/-- The invariant is there from the taking of the file on. It can change from `p₀` to `p₁` when the
worker attaches the file and from there to `p` when the arbiter does. -/
theorem draft {file : String} {K p₀ p₁ : Scene Crew → Prop} (hp₁ : ∀ s, p₁ s → p s)
    (htake : Brings K (fun _ => p₀) (fun _ => p) (byWorker (Worker.take file)))
    (hdraft : Brings p₀ (fun _ => p₁) (fun _ => p) (byWorker Worker.draftContracts))
    (hworker : ∀ a, Worker.Upkeep (WithArbiter p₁ a))
    (hjudge : ∀ path contracts, Brings p₁ (fun _ => p) (fun _ => p)
      (byArbiter (Arbiter.judgeContracts path contracts))) :
    Brings K (fun _ => p) (fun _ => p) (Workflow.draft file) := by
  have hstep {α : Type} {act : Act Worker α} (hact : Worker.Routine Speaking act) :
      Brings p₁ (fun _ => p₁) (fun _ => p) (byWorker act) :=
    (brings_byWorker_beside fun a => (hworker a).keeps hact).mono (fun _ => id) (fun _ _ => id)
      fun _ => hp₁
  refine htake.bind fun _ => hdraft.bind fun _ =>
    (hstep (Worker.routine_selfReview speaks_speaking)).bind fun contracts =>
    (hstep (Worker.routine_draftPath ".rs")).bind fun path =>
    (hjudge path contracts).bind fun initial => ?_
  exact h.keeps (D := fun _ _ => False) (Workflow.routine_rounds speaks_speaking file initial)
    fun _ _ => False.elim

theorem processFiles (hdraft : ∀ file, (Workflow.draft file).Keeps p) (files : List String) :
    (Workflow.processFiles files).Keeps p :=
  h.keeps (D := fun _ act => act.Keeps p)
    (Workflow.routine_processFiles speaks_speaking hdraft files)
    fun _ _ => id

end Upkeep

end Crew

end Covenant
