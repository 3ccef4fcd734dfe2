import Covenant.Proofs.Crew.Steady

/-!
# A draft of contracts, and its grades

What the crew does to draft contracts for a file and have them graded, whatever was said before: it
writes nothing but the copy of the source, and each assessment notes one grade.
-/

namespace Covenant

open Conversation Crew

/-! ## Grades -/

/-- The grade that the event notes, with the output it is of. -/
def Event.grade? : Event → Option (String × Int)
  | .graded output g => some (output, g)
  | _ => none

/-- The grades that were given, in order. -/
def grades (es : List Event) : List (String × Int) := es.filterMap Event.grade?

theorem grades_concat (es : List Event) (e : Event) :
    grades (es ++ [e]) = grades es ++ e.grade?.toList := by
  rw [grades, List.filterMap_append]
  cases h : e.grade? with
  | none => rw [List.filterMap_cons_none h]; rfl
  | some g => rw [List.filterMap_cons_some h]; rfl

theorem grades_concat_of_none {e : Event} (h : e.grade? = none) (es : List Event) :
    grades (es ++ [e]) = grades es := by
  rw [grades_concat, h]
  exact List.append_nil _

theorem Conversation.Said.grade? {I : Conversation → Prop} {e : Event} (h : Said I e) :
    e.grade? = none := by
  cases h with
  | request _ => rfl
  | wait _ => rfl
  | close => rfl

/-! ## Drafting -/

namespace Worker

variable {st : Settings} {name : String} {w₀ : Worker}

/-- The drafts of the worker have this name. -/
abbrev Named (name : String) (w : Worker) : Prop := w.draftName = some name

/-- What a worker does that takes on a file. -/
inductive TakesOn (file : String) : Event → Prop
  | fetch : TakesOn file (.fetch file)
  | take (text : String) : TakesOn file (.take file text)

theorem leads_sourceText {P : Event → Prop} {file : String} (h : P (.fetch file)) :
    (sourceText file).Leads P := by
  refine .ite (fun _ => (Effect.leads_fetch h).bind fun c => ?_) fun _ => Effect.leads_readText _
  cases c.raw? with
  | some s => exact .pure s
  | none => exact Effect.leads_fail _

theorem leads_take (file : String) :
    (take file).Leads st (TakesOn file) (fun _ => True)
      (fun _ w => w.draftName = some (draftNameOf st.sourceDir file)) fun _ => True := by
  refine .settings_bind (.bind (Act.leads_modifyFocus (K := fun _ w =>
    w.draftName = some (draftNameOf st.sourceDir file)) fun _ _ => rfl) fun _ => ?_)
  refine .bind (Act.leads_lift (K := fun _ w => w.draftName = some (draftNameOf st.sourceDir file))
    (leads_sourceText .fetch) (fun _ _ => id) fun _ _ => trivial) fun text => ?_
  refine .bind (Act.leads_modifyFocus (K := fun _ w =>
    w.draftName = some (draftNameOf st.sourceDir file)) fun _ => id) fun _ => ?_
  exact Act.leads_lift (Effect.leads_record (.take text) fun _ => rfl) (fun _ _ => id)
    fun _ _ => trivial

/-- What drafting contracts does: it talks, and writes the copy of the source. -/
inductive Drafts (st : Settings) (name : String) : Event → Prop
  | said {e : Event} : Said (fun _ => True) e → Drafts st name e
  | copy (c : Content) : Drafts st name (.write (st.draftPath name ".rs") c)

theorem leads_presentSource (hname : w₀.draftName = some name) :
    presentSource.Leads st (Drafts st name) (Still w₀ fun _ => True)
      (fun _ => Still w₀ fun _ => True) fun _ => True := by
  refine .settings_bind (.bind (Act.leads_lift (K := fun _ => Still w₀ fun _ => True)
    (Effect.leads_remark _) (fun _ _ => id) fun _ _ => trivial) fun _ => ?_)
  refine (leads_talk leads_dropMarked_any).bind fun _ =>
    leads_draftPath_bind (fun _ h => h.draftName.trans hname) ?_
  refine .bind (leads_talk ((leads_attachWith_any _ _).post fun _ _ _ => trivial)) fun _ => ?_
  exact leads_talk (B := fun _ _ => True) (D := fun _ => True)
    (Act.leads_modifyFocus fun _ _ => trivial)

theorem leads_draftContracts (hname : w₀.draftName = some name) :
    draftContracts.Leads st (Drafts st name) (Still w₀ fun _ => True)
      (fun _ => Still w₀ fun _ => True) fun _ => True := by
  have hany {α : Type} {act : Act Worker α} {P : Event → Prop} {K : α → Worker → Prop}
      (h : act.Leads st P (Still w₀ fun _ => True) K (Halted (fun _ => True) fun _ => True))
      (hP : ∀ e, P e → Drafts st name e) :
      act.Leads st (Drafts st name) (Still w₀ fun _ => True) K fun _ => True :=
    h.mono hP (fun _ => id) (fun _ _ => id) fun _ _ => trivial
  have hset := hany ((leads_setContracts "").post fun _ _ h => h.1) (P := fun _ => False)
    fun _ h => h.elim
  have hsay (t : String) := hany (leads_effect (Effect.leads_remark t)) (P := fun _ => False)
    fun _ h => h.elim
  refine .focus_bind fun w _ => .ite (fun _ => ?_) fun _ => ?_
  · exact hset.bind fun _ => (hsay _).bind fun _ => .pure fun _ => id
  · refine (hsay _).bind fun _ => hset.bind fun _ => ?_
    refine .bind (hany (leads_storeSource hname) fun e ⟨c, he⟩ => he ▸ .copy c) fun _ => ?_
    refine .bind (hany (leads_talk (stable_true.setSystem _ _)) fun _ => .said) fun _ => ?_
    refine .bind (hany (leads_tell stable_true _ _) fun _ => .said) fun _ => ?_
    exact (leads_presentSource hname).bind fun _ => hany (leads_drafting stable_true) fun _ => .said

end Worker

/-- The first assessment of contracts, whatever was said before. -/
theorem Arbiter.brings_judgeContracts {st : Settings} {T : World → Prop}
    {T' : Int → World → Prop} {contracts : String}
    (hT : ∀ {w w'}, T w → w.Leads (Asks (fun _ => True) contracts) w' → T w')
    (hT' : ∀ g w, T w → T' g (w.noting (.graded contracts g))) (path : String) :
    Brings (Act.At st (fun _ : Arbiter => True) T) (fun g => Act.At st (fun _ => True) (T' g))
      (fun _ s => T s.world) (judgeContracts path contracts) := by
  have hstep {α : Type} {act : Act Arbiter α} {P : Event → Prop} {K : α → Arbiter → Prop}
      {D : Arbiter → Prop} (h : act.Leads st P (fun _ => True) K D)
      (hP : ∀ e, P e → Asks (fun _ => True) contracts e) :
      Brings (Act.At st (fun _ => True) T) (fun _ => Act.At st (fun _ => True) T)
        (fun _ s => T s.world) act :=
    ((h.mono hP (fun _ => id) (fun _ _ _ => trivial) fun _ => id).brings hT).mono (fun _ => id)
      (fun _ _ => id) fun _ _ ht => ht.world
  have hquiet {α : Type} {act : Act Arbiter α} {K : α → Arbiter → Prop} {D : Arbiter → Prop}
      (h : act.Leads st (fun _ => False) (fun _ => True) K D) := hstep h fun _ => False.elim
  have hask : Brings (Act.At st (fun _ => True) T) (fun g => Act.At st (fun _ => True) (T' g))
      (fun _ s => T s.world) (do
        let _ ← Arbiter.ask
        gradeOf contracts) :=
    (hstep (leads_ask stable_true) fun _ => .said).bind fun _ =>
      (brings_gradeOf stable_true hT hT').mono (fun _ => id) (fun _ _ => id) fun _ _ ht => ht.world
  refine .value_bind (fun _ hs => Act.settings_apply hs.settings) ?_
  refine (hquiet (leads_effect (I := fun _ => True) (H := fun _ => True)
    (Effect.leads_remark _))).bind fun _ => ?_
  refine (hquiet (leads_setGrade (I := fun _ => True) (H := fun _ => True) _)).bind fun _ =>
    (hquiet (leads_talk (stable_true.setSystem _ _))).bind fun _ =>
    (hquiet (leads_talk leads_dropMarked_any)).bind fun _ =>
    (hquiet (leads_talk (leads_attachWith_any _ _))).bind fun _ => ?_
  refine .bind (hquiet (Act.leads_zoom (A := fun _ => True) (B := fun _ _ => True)
    (C := fun _ => True) (K := fun _ _ => True) (D := fun _ => True)
    (Act.leads_modifyFocus fun _ _ => trivial) (fun _ => id) (fun _ _ _ _ => id)
    fun _ _ _ => id)) fun _ => ?_
  refine .value_bind (fun _ hs => Act.settings_apply hs.settings) (.ite (fun _ => ?_) fun _ => hask)
  exact (hquiet (leads_talk (stable_true.tellBoth _ _))).bind fun _ => hask

theorem Workflow.leads_isAvailable {P : Event → Prop} {file : String} (h : P (.fetch file)) :
    (Workflow.isAvailable file).Leads P := by
  refine .ite (fun _ w => ends_tryCatch.2 ?_) fun _ => .get_bind fun _ => .pure _
  have hfetch : (do let _ ← Effect.fetch file; return true : Effect Bool).Leads P :=
    (Effect.leads_fetch h).bind fun _ => .pure _
  refine (hfetch w).mono (fun _ _ => id) fun e w' hw => ?_
  cases e with
  | fault f =>
    cases f with
    | httpStatus code => exact hw
    | _ => exact hw
  | _ => exact hw

namespace Crew

variable {α : Type} {st : Settings} {P : Event → Prop} {name : String}

/-- The worker is in `A`, and its drafts have this name. -/
abbrev Has (name : String) (A : Worker → Prop) (crew : Crew) : Prop :=
  crew.worker.Named name ∧ A crew.worker

theorem leads_byWorker {act : Act Worker α} {A : Worker → Prop} {K : α → Worker → Prop}
    {D : Worker → Prop} (h : ∀ w₀ : Worker, w₀.draftName = some name →
      act.Leads st P (fun w => w₀.Still (fun _ => True) w ∧ A w)
        (fun v w => w₀.Still (fun _ => True) w ∧ K v w) D) :
    (byWorker act).Leads st P (Has name A) (fun v => Has name (K v)) fun _ => True := by
  intro s hst hs
  refine Act.ends_zoom.2 ((h s.focus.worker hs.1 _ hst ⟨⟨rfl, rfl, rfl, trivial⟩, hs.2⟩).mono
    (fun v t ht => ?_) fun _ t ht => ?_)
  · exact ⟨⟨ht.1.1.draftName.trans hs.1, ht.1.2⟩, ht.2⟩
  · exact ⟨trivial, ht.2⟩

theorem leads_byArbiter {act : Act Arbiter α} {A : Worker → Prop} {D : Arbiter → Prop}
    (h : act.Leads st P (fun _ => True) (fun _ _ => True) D) :
    (byArbiter act).Leads st P (Has name A) (fun _ => Has name A) fun _ => True :=
  Act.leads_zoom h (fun _ _ => trivial) (fun _ _ _ hw _ => hw) fun _ _ _ _ => trivial

theorem brings_byArbiter {act : Act Arbiter α} {A : Worker → Prop} {T : World → Prop}
    {T' : α → World → Prop} {E : Stop → Scene Arbiter → Prop}
    (h : Brings (Act.At st (fun _ => True) T) (fun v => Act.At st (fun _ => True) (T' v)) E act)
    (hE : ∀ e t, E e t → T t.world) :
    Brings (Act.At st (Has name A) T) (fun v => Act.At st (Has name A) (T' v))
      (fun _ s => T s.world) (byArbiter act) :=
  Act.brings_zoom h (fun _ hs => ⟨hs.settings, trivial, hs.world⟩)
    (fun _ _ _ hs ht => ⟨ht.settings, hs.focus, ht.world⟩) fun _ e t _ => hE e t

/-- What the worker does with a file, whatever was said before. -/
theorem leads_ofStill {act : Act Worker α} {A : Worker → Prop} {K : α → Worker → Prop}
    {D : Worker → Prop} (h : ∀ w₀ : Worker, w₀.draftName = some name →
      act.Leads st P (w₀.Still fun _ => True) (fun v w => w₀.Still (fun _ => True) w ∧ K v w) D) :
    (byWorker act).Leads st P (Has name A) (fun v => Has name (K v)) fun _ => True :=
  leads_byWorker fun w₀ hw =>
    (h w₀ hw).mono (fun _ => id) (fun _ h => h.1) (fun _ _ => id) fun _ => id

section

variable {A : Worker → Prop}

theorem leads_take (file : String) :
    (byWorker (Worker.take file)).Leads st (Worker.TakesOn file) (fun _ => True)
      (fun _ => Has (Worker.draftNameOf st.sourceDir file) fun _ => True) fun _ => True :=
  Act.leads_zoom (Worker.leads_take file) (fun _ => id) (fun _ _ _ _ hw => ⟨hw, trivial⟩)
    fun _ _ _ _ => trivial

theorem leads_draftContracts :
    (byWorker Worker.draftContracts).Leads st (Worker.Drafts st name) (Has name A)
      (fun _ => Has name fun _ => True) fun _ => True :=
  leads_ofStill fun _ hw => (Worker.leads_draftContracts hw).post fun _ _ h => ⟨h, trivial⟩

theorem leads_selfReview :
    (byWorker Worker.selfReview).Leads st (Said fun _ => True) (Has name A)
      (fun s => Has name (·.contracts = some s)) fun _ => True :=
  leads_ofStill fun _ _ => Worker.leads_selfReview stable_true

theorem leads_reviseContracts (instructions : String) :
    (byWorker (Worker.reviseContracts instructions)).Leads st (Said fun _ => True) (Has name A)
      (fun _ => Has name fun _ => True) fun _ => True :=
  leads_ofStill fun _ _ => (Worker.leads_reviseContracts stable_true instructions).post
    fun _ _ h => ⟨h, trivial⟩

theorem leads_draftHarnesses :
    (byWorker Worker.draftHarnesses).Leads st (Said fun _ => True) (Has name A)
      (fun s => Has name (·.harnesses = some s)) fun _ => True :=
  leads_ofStill fun _ _ => Worker.leads_draftHarnesses stable_true

theorem leads_reviseHarnesses (instructions : String) :
    (byWorker (Worker.reviseHarnesses instructions)).Leads st (Said fun _ => True) (Has name A)
      (fun s => Has name (·.harnesses = some s)) fun _ => True :=
  leads_ofStill fun _ _ => Worker.leads_reviseHarnesses stable_true instructions

end

end Crew

end Covenant
