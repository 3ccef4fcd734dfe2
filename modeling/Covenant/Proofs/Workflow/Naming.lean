import Covenant.Proofs.Workflow.Saving
import Covenant.Proofs.Workflow.Upkeep

/-!
# The name of the drafts

Whatever a file is called, the name of its drafts has no slash and no dot. The worker gets this name
when it takes on the file, and has it to the end of the work on the file, stopped or not
(`brings_processFile_named`).
-/

namespace Covenant

open Conversation

theorem Text.not_mem_firstField {sep : String} {c : Char} (hsep : sep.toList = [c])
    (s : List Char) : c ∉ firstField sep s := by
  induction s with
  | nil => simp [firstField_nil]
  | cons a r ih =>
    rw [firstField_cons, hsep]
    by_cases ha : c = a
    · simp [ha]
    · simp [ha, ih]

/-- The name of the drafts is no path, whatever the file is called. -/
theorem Worker.draftNameOf_plain (sourceDir file : String) :
    '/' ∉ (draftNameOf sourceDir file).toList ∧ '.' ∉ (draftNameOf sourceDir file).toList := by
  rw [draftNameOf, String.toList_ofList]
  constructor
  · intro hm
    obtain ⟨c, -, hc⟩ := List.mem_map.1 hm
    by_cases h : c = '/'
    · rw [if_pos h] at hc
      exact absurd hc (by decide)
    · rw [if_neg h] at hc
      exact h hc
  · intro hm
    obtain ⟨c, hmem, hc⟩ := List.mem_map.1 hm
    by_cases h : c = '/'
    · rw [if_pos h] at hc
      exact absurd hc (by decide)
    · rw [if_neg h] at hc
      subst hc
      exact Text.not_mem_firstField rfl _ hmem

/-! ## Keeping the name -/

/-- The drafts of the crew's worker have this name. -/
def Crew.Called (name : String) (s : Scene Crew) : Prop := s.focus.worker.Named name

section

variable {α : Type} {name : String}

theorem Worker.keeps_talk (act : Act Conversation α) :
    (talk act).Keeps fun s => s.focus.Named name := fun _ hs =>
  Act.ends_zoom.2 (ends_iff.2 ⟨fun _ _ _ => hs, fun _ _ _ => hs⟩)

theorem Worker.upkeep_named : Worker.Upkeep fun s => s.focus.Named name where
  world hs _ := hs
  drafts _ _ hs := hs
  tell _ _ := keeps_talk _
  ask := keeps_talk _

theorem Crew.keeps_byArbiter (act : Act Arbiter α) : (byArbiter act).Keeps (Called name) :=
  fun _ hs => Act.ends_zoom.2 (ends_iff.2 ⟨fun _ _ _ => hs, fun _ _ _ => hs⟩)

theorem Crew.upkeep_called : Crew.Upkeep (Called name) where
  worker _ := Worker.upkeep_named
  arbiter _ := {
    world := fun hs _ => hs
    grade := fun _ hs => hs
    tell := fun _ _ _ hs => ends_iff.2 ⟨fun _ _ _ => hs, fun _ _ _ => hs⟩
    ask := fun _ hs => ends_iff.2 ⟨fun _ _ _ => hs, fun _ _ _ => hs⟩ }

end

namespace Workflow

open Crew

variable {st : Settings} {file : String}

/-- From the beginning of a draft the worker has the name for it. -/
theorem brings_draft_named :
    Brings (fun s : Scene Crew => s.world.settings = st) (fun _ => Called (st.nameOf file))
      (fun _ => Called (st.nameOf file)) (draft file) := by
  have h := @Worker.upkeep_named (st.nameOf file)
  have htake : Brings (fun s : Scene Worker => s.world.settings = st)
      (fun _ s => s.focus.Named (st.nameOf file)) (fun _ s => s.focus.Named (st.nameOf file))
      (Worker.take file) := by
    have hsource (text : String) : (Act.modifyFocus fun w : Worker =>
        { w with source := some text }).Keeps fun s => s.focus.Named (st.nameOf file) :=
      fun _ hs => hs
    refine .value_bind (fun s hs => Act.settings_apply hs) (.bind
      (Q := fun _ (s : Scene Worker) => s.focus.Named (st.nameOf file)) (fun s _ => ?_) fun _ => ?_)
    · exact (rfl : _ = some _)
    · exact (h.keeps (Worker.routine_effect (Worker.plain_sourceText file))).bind fun text =>
        (hsource text).bind fun _ => fun _ hs => hs
  have htalk {α : Type} (act : Act Conversation α) := @Worker.keeps_talk α (st.nameOf file) act
  have hdraft : Worker.draftContracts.Keeps fun s => s.focus.Named (st.nameOf file) :=
    h.draftContracts h.toFiles (fun _ => id) (fun _ _ => htalk _) (fun _ _ => htalk _) h.toFiles
      (fun _ => id) (htalk _) (fun _ _ => htalk _) (htalk _)
  exact upkeep_called.draft (fun _ => id)
    (Act.brings_zoom htake (fun _ => id) (fun _ _ _ _ => id) fun _ _ _ _ => id)
    (brings_byWorker_beside (p := Called _) fun _ => hdraft) (fun _ => h) fun _ _ =>
    keeps_byArbiter _

/-- Once anything was written, the worker has the name for the drafts of the file. -/
theorem brings_processFile_named (w₀ : World) :
    Brings (fun s : Scene Crew => s.world = w₀)
      (fun _ s => Called (w₀.settings.nameOf file) s ∨
        w₀.Leads (fun e => ∀ path, e.written? path = none) s.world)
      (fun _ s => Called (w₀.settings.nameOf file) s ∨
        w₀.Leads (fun e => ∀ path, e.written? path = none) s.world) (processFile file) := by
  have hquiet {α : Type} {e : Effect α} (he : e.Leads fun e => ∀ path, e.written? path = none) :
      Brings (fun s : Scene Crew => w₀.Leads (fun e => ∀ path, e.written? path = none) s.world)
        (fun _ s => w₀.Leads (fun e => ∀ path, e.written? path = none) s.world)
        (fun _ s => Called (w₀.settings.nameOf file) s ∨
          w₀.Leads (fun e => ∀ path, e.written? path = none) s.world) (Act.lift e) :=
    fun s hs => Act.ends_lift.2 ((he s.world).mono (fun _ _ hl => hs.trans hl)
      fun _ _ hl => .inr (hs.trans hl))
  refine .bind ((hquiet (leads_isAvailable fun _ => rfl)).mono (fun s hs => hs ▸ .refl _)
    (fun _ _ => id) fun _ _ => id) fun _ => .ite (fun _ => ?_) fun _ => ?_
  · refine .bind (brings_draft_named.mono (fun s hs => hs.settings) (fun _ _ => id)
      fun _ _ => .inl) fun grade => ?_
    exact (upkeep_called.rest file grade).mono (fun _ => id) (fun _ _ => .inl) fun _ _ => .inl
  · exact (hquiet (Effect.leads_remark _)).mono (fun _ => id) (fun _ _ => .inr) fun _ _ => id

end Workflow

end Covenant
