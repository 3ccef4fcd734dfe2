import Covenant.Proofs.Conversation.Exchange
import Covenant.Proofs.World.Path
import Covenant.Workflow

/-!
# What the worker and the arbiter do between two files

After it has been given a file, the worker talks and files its drafts: its file, its draft name and
its source stay, and so does every stable property of its conversation. The same holds of the
arbiter's conversation. There is one lemma for each operation, with the value it gives where later
steps depend on it.
-/

namespace Covenant

open Conversation

/-- The path of a draft in the target directory. -/
def Settings.draftPath (st : Settings) (id ending : String) : String := st.targetDir ++ id ++ ending

theorem Settings.draftPath_inj {st : Settings} {name a b : String} :
    st.draftPath name a = st.draftPath name b ↔ a = b := by
  simp [Settings.draftPath, ← String.toList_inj]

/-- The copy in a directory at the path of the annotated file. -/
theorem Settings.join_draftPath (st : Settings) (name path : String) :
    Path.join (st.draftPath name "_annotated.rs") (Path.base path) =
      st.draftPath name ("_annotated.rs/" ++ Path.base path) := by
  have hne : (st.draftPath name "_annotated.rs" == "") = false := by
    rw [beq_eq_false_iff_ne]
    intro h
    have hl := congrArg String.toList h
    simp [Settings.draftPath] at hl
  have hslash : Path.endsInSlash (st.draftPath name "_annotated.rs") = false := by
    simp [Settings.draftPath, Path.endsInSlash]
  rw [Path.join, Path.isRooted_base, hne, hslash]
  simp [Settings.draftPath, ← String.toList_inj]

namespace Worker

/-- A worker with the file of `w₀` and a conversation in `I`. -/
structure Still (w₀ : Worker) (I : Conversation → Prop) (w : Worker) : Prop where
  file : w.file = w₀.file
  draftName : w.draftName = w₀.draftName
  source : w.source = w₀.source
  conversation : I w.conversation

theorem need_apply {what : Worker → Option String} {v : String} {s : Scene Worker}
    (h : what s.focus = some v) : need what s = .ok v s := by
  unfold need
  show EStateM.bind Act.focus _ s = _
  rw [EStateM.bind, Act.focus_apply]
  dsimp only
  rw [h]
  rfl

theorem need_apply_none {what : Worker → Option String} {s : Scene Worker}
    (h : what s.focus = none) : need what s = .error (.fault .unset) s := by
  unfold need
  show EStateM.bind Act.focus _ s = _
  rw [EStateM.bind, Act.focus_apply]
  dsimp only
  rw [h]
  rfl

theorem draftPath_apply {id : String} {s : Scene Worker} (h : s.focus.draftName = some id)
    (ending : String) :
    Worker.draftPath ending s = .ok (s.world.settings.draftPath id ending) s := by
  show EStateM.bind (need (·.draftName)) _ s = _
  rw [EStateM.bind, need_apply h]
  rfl

section

variable {α : Type} {st : Settings} {P : Event → Prop} {H : Datum → Prop}
  {I : Conversation → Prop} {w₀ : Worker} {J : Worker → Prop}

/-- How the worker is left when an operation on it is stopped. -/
abbrev Halted (H : Datum → Prop) (I : Conversation → Prop) (w : Worker) : Prop :=
  Stopped H I w.conversation

theorem Still.halted {w : Worker} (h : Still w₀ I w) : Halted H I w :=
  .answered (.same h.conversation)

theorem leads_need {what : Worker → Option String} {D : Worker → Prop} (hD : ∀ w, J w → D w) :
    (need what).Leads st P J (fun s w => J w ∧ what w = some s) D := by
  intro s _ hs
  unfold Ends
  cases hw : what s.focus with
  | some v =>
    rw [need_apply hw]
    exact ⟨⟨hs, hw⟩, .refl _⟩
  | none =>
    rw [need_apply_none hw]
    exact ⟨hD _ hs, .refl _⟩

theorem leads_needed {what : Worker → Option String} :
    (need what).Leads st P (Still w₀ I) (fun _ => Still w₀ I) (Halted H I) :=
  (leads_need fun _ h => h.halted).post fun _ _ h => h.1

theorem leads_draftPath (ending : String) :
    (Worker.draftPath ending).Leads st P (Still w₀ I) (fun _ => Still w₀ I) (Halted H I) :=
  leads_needed.bind fun _ => .settings_bind (.pure fun _ => id)

theorem leads_talk {act : Act Conversation α} {A D : Conversation → Prop}
    {B : α → Conversation → Prop} (h : act.Leads st P A B D) :
    (talk act).Leads st P (Still w₀ A) (fun v => Still w₀ (B v)) (fun w => D w.conversation) :=
  Act.leads_zoom h (fun _ hw => hw.conversation)
    (fun _ _ _ hw hc => ⟨hw.file, hw.draftName, hw.source, hc⟩) fun _ _ _ hc => hc

theorem brings_talk {act : Act Conversation α} {A D : Conversation → Prop}
    {B : α → Conversation → Prop} {T T' T'' : World → Prop}
    (h : Brings (Act.At st A T) (fun v => Act.At st (B v) T') (fun _ => Act.At st D T'') act) :
    Brings (Act.At st (Still w₀ A) T) (fun v => Act.At st (Still w₀ (B v)) T')
      (fun _ => Act.At st (fun w => D w.conversation) T'') (talk act) :=
  Act.brings_zoom h (fun _ hs => ⟨hs.settings, hs.focus.conversation, hs.world⟩)
    (fun _ _ _ hs ht => ⟨ht.settings,
      ⟨hs.focus.file, hs.focus.draftName, hs.focus.source, ht.focus⟩, ht.world⟩)
    fun _ _ _ _ ht => ⟨ht.settings, ht.focus, ht.world⟩

theorem leads_effect {e : Effect α} (he : e.Leads P) :
    (Act.lift e).Leads st P (Still w₀ I) (fun _ => Still w₀ I) (Halted H I) :=
  Act.leads_lift he (fun _ _ => id) fun _ h => h.halted

theorem leads_setContracts (s : String) :
    (setContracts s).Leads st P (Still w₀ I) (fun _ w => Still w₀ I w ∧ w.contracts = some s)
      (Halted H I) :=
  Act.leads_modifyFocus fun _ h => ⟨⟨h.file, h.draftName, h.source, h.conversation⟩, rfl⟩

theorem leads_setHarnesses (s : String) :
    (setHarnesses s).Leads st P (Still w₀ I) (fun _ w => Still w₀ I w ∧ w.harnesses = some s)
      (Halted H I) :=
  Act.leads_modifyFocus fun _ h => ⟨⟨h.file, h.draftName, h.source, h.conversation⟩, rfl⟩

theorem leads_draftPath_bind {id : String} {f : String → Act Worker α} {L : α → Worker → Prop}
    {D : Worker → Prop} (hJ : ∀ w, J w → w.draftName = some id) {ending : String}
    (hf : (f (st.draftPath id ending)).Leads st P J L D) :
    (Worker.draftPath ending >>= f).Leads st P J L D :=
  .value_bind (fun _ hst hs => hst ▸ draftPath_apply (hJ _ hs) ending) hf

variable (hI : Stable H I)

include hI

theorem leads_ask : ask.Leads st (Said I) (Still w₀ I) (fun _ => Still w₀ I) (Halted H I) :=
  leads_talk hI.ask

theorem leads_tell (text file : String) :
    (talk (tellBoth text file)).Leads st P (Still w₀ I) (fun _ => Still w₀ I) (Halted H I) :=
  leads_talk (hI.tellBoth text file)

theorem leads_askContracts :
    (do setContracts (← ask); need (·.contracts) : Act Worker String).Leads st (Said I) (Still w₀ I)
      (fun s w => Still w₀ I w ∧ w.contracts = some s) (Halted H I) := by
  refine (leads_ask hI).bind fun s => (leads_setContracts s).bind fun _ => ?_
  refine (leads_need (J := fun w => Still w₀ I w ∧ w.contracts = some s)
    fun _ h => h.1.halted).post fun _ _ h => ⟨h.1.1, h.2⟩

omit hI in
theorem leads_hasNoContracts :
    hasNoContracts.Leads st P (Still w₀ I) (fun _ => Still w₀ I) (Halted H I) := by
  refine .focus_bind fun w _ => .ite (fun _ => .pure fun _ => id) fun _ => ?_
  exact leads_needed.bind fun _ => .pure fun _ => id

omit hI in
theorem leads_listedFunctions :
    listedFunctions.Leads st P (Still w₀ I) (fun _ => Still w₀ I) (Halted H I) :=
  leads_needed.bind fun _ => .pure fun _ => id

theorem leads_draftInvariants :
    draftInvariants.Leads st (Said I) (Still w₀ I) (fun _ => Still w₀ I) (Halted H I) := by
  refine leads_hasNoContracts.bind fun _ => .ite (fun _ => ?_) fun _ => ?_
  · exact (leads_effect (Effect.leads_remark _)).bind fun _ => .pure fun _ => id
  · refine (leads_effect (Effect.leads_remark _)).bind fun _ => (leads_tell hI _ _).bind fun _ =>
      (leads_ask hI).bind fun _ => (leads_tell hI _ _).bind fun _ => ?_
    exact (leads_askContracts hI).post fun _ _ h => h.1

/-- What follows the attachment of the file. -/
theorem leads_drafting :
    (do
      let _ ← ask
      talk (tellPrompt "worker_closing_refine.txt")
      setContracts (← ask)
      if (← Effect.settings).wantInvariants then setContracts (← draftInvariants)
      need (·.contracts) : Act Worker String).Leads st (Said I) (Still w₀ I) (fun _ => Still w₀ I)
      (Halted H I) := by
  have hset (s : String) : (setContracts s).Leads st (Said I) (Still w₀ I) (fun _ => Still w₀ I)
      (Halted H I) := (leads_setContracts s).post fun _ _ h => h.1
  refine (leads_ask hI).bind fun _ => (leads_tell hI _ _).bind fun _ => (leads_ask hI).bind fun s =>
    (hset s).bind fun _ => .settings_bind (.ite (fun _ => ?_) fun _ => leads_needed)
  exact (leads_draftInvariants hI).bind fun s => (hset s).bind fun _ => leads_needed

/-- The worker looks over its contracts and gives them. -/
theorem leads_selfReview :
    selfReview.Leads st (Said I) (Still w₀ I) (fun s w => Still w₀ I w ∧ w.contracts = some s)
      (Halted H I) := by
  refine .focus_bind fun w _ => .ite (fun _ => ?_) fun _ => ?_
  · exact (leads_setContracts "").bind fun _ => .pure fun _ => id
  · refine (leads_effect (Effect.leads_remark _)).bind fun _ => ?_
    refine ((leads_setContracts "").post fun _ _ h => h.1).bind fun _ => ?_
    exact (leads_tell hI _ _).bind fun _ => (leads_ask hI).bind fun _ =>
      (leads_tell hI _ _).bind fun _ => leads_askContracts hI

omit hI in
theorem leads_remarkRefining : remarkRefining.Leads P :=
  Effect.leads_settings.bind fun _ => Effect.leads_remark _

theorem leads_reviseContracts (instructions : String) :
    (reviseContracts instructions).Leads st (Said I) (Still w₀ I) (fun _ => Still w₀ I)
      (Halted H I) := by
  refine (leads_effect leads_remarkRefining).bind fun _ => (leads_tell hI _ _).bind fun _ =>
    (leads_ask hI).bind fun _ => (leads_tell hI _ _).bind fun _ => ?_
  exact (leads_askContracts hI).post fun _ _ h => h.1

theorem leads_draftHarnessesOf (fs : List String) :
    (draftHarnessesOf fs).Leads st (Said I) (Still w₀ I) (fun _ => Still w₀ I) (Halted H I) := by
  induction fs with
  | nil => exact .pure fun _ => id
  | cons f fs ih =>
    exact (leads_tell hI _ _).bind fun _ => (leads_ask hI).bind fun _ => ih.bind fun _ =>
      .pure fun _ => id

omit hI in
theorem leads_needHarnesses (s : String) :
    (do setHarnesses s; need (·.harnesses) : Act Worker String).Leads st P (Still w₀ I)
      (fun s w => Still w₀ I w ∧ w.harnesses = some s) (Halted H I) := by
  refine (leads_setHarnesses s).bind fun _ => ?_
  refine (leads_need (J := fun w => Still w₀ I w ∧ w.harnesses = some s)
    fun _ h => h.1.halted).post fun _ _ h => ⟨h.1.1, h.2⟩

omit hI in
theorem leads_clearHarnesses :
    (setHarnesses "").Leads st P (Still w₀ I) (fun _ => Still w₀ I) (Halted H I) :=
  (leads_setHarnesses "").post fun _ _ h => h.1

theorem leads_draftHarnesses :
    draftHarnesses.Leads st (Said I) (Still w₀ I)
      (fun s w => Still w₀ I w ∧ w.harnesses = some s) (Halted H I) := by
  refine .focus_bind fun w _ => leads_hasNoContracts.bind fun _ => .ite (fun _ => ?_) fun _ => ?_
  · refine (leads_setHarnesses "").bind fun _ => .bind (Act.leads_lift
      (K := fun _ w => Still w₀ I w ∧ w.harnesses = some "") (Effect.leads_remark _)
      (fun _ _ => id) fun _ h => h.1.halted) fun _ => ?_
    exact .pure fun _ => id
  · refine (leads_effect (Effect.leads_remark _)).bind fun _ => leads_clearHarnesses.bind fun _ =>
      (leads_tell hI _ _).bind fun _ => (leads_ask hI).bind fun _ => ?_
    exact leads_listedFunctions.bind fun functions =>
      (leads_draftHarnessesOf hI functions).bind fun _ => leads_needHarnesses _

theorem leads_reviseHarnesses (instructions : String) :
    (reviseHarnesses instructions).Leads st (Said I) (Still w₀ I)
      (fun s w => Still w₀ I w ∧ w.harnesses = some s) (Halted H I) :=
  (leads_effect leads_remarkRefining).bind fun _ => leads_clearHarnesses.bind fun _ =>
    (leads_tell hI _ _).bind fun _ => (leads_ask hI).bind fun _ => leads_needHarnesses _

omit hI in
/-- Counting changes nothing. -/
theorem leads_logCount {D : Worker → Prop} (hD : ∀ w, J w → D w) :
    logCount.Leads st P J (fun _ => J) D := by
  have hneed : (need (·.contracts)).Leads st P J (fun _ => J) D :=
    (leads_need hD).post fun _ _ h => h.1
  refine hneed.bind fun _ => .ite (fun _ => ?_) fun _ => .pure fun _ => id
  exact (hneed.bind fun _ => .pure fun _ => id).bind fun _ =>
    Act.leads_lift (Effect.leads_log _) (fun _ _ => id) hD

end

/-! ## Filing -/

section

variable {st : Settings} {H : Datum → Prop} {I : Conversation → Prop} {w₀ : Worker} {name : String}

/-- What saving the contracts `text` writes: the contracts, and the annotated file or a copy of the
source in a directory at its path. -/
inductive SavesContracts (st : Settings) (name text : String) : Event → Prop
  | contracts : SavesContracts st name text
      (.write (st.draftPath name "_contracts.rs") (.text (unfenced text)))
  | annotated (c : Content) : SavesContracts st name text
      (.write (st.draftPath name "_annotated.rs") c)
  | within (c : Content) : SavesContracts st name text (.write
      (Path.join (st.draftPath name "_annotated.rs") (Path.base (st.draftPath name ".rs"))) c)

/-- What saving harnesses does. -/
inductive SavesHarnesses (st : Settings) (name : String) : Event → Prop
  | harnesses (c : Content) : SavesHarnesses st name (.write (st.draftPath name "_harnesses.rs") c)
  | format : SavesHarnesses st name (.run ["rustfmt", st.draftPath name "_harnesses.rs"] none)
  | annotated (c : Content) : SavesHarnesses st name (.write (st.draftPath name "_annotated.rs") c)

theorem leads_storeSource (hname : w₀.draftName = some name) :
    storeSource.Leads st (fun e => ∃ c, e = .write (st.draftPath name ".rs") c) (Still w₀ I)
      (fun _ => Still w₀ I) (Halted H I) := by
  refine leads_draftPath_bind (fun _ h => h.draftName.trans hname) ?_
  refine (leads_effect (Effect.leads_remark _)).bind fun _ => .settings_bind ?_
  refine (leads_effect (Effect.leads_makeDirectory _)).bind fun _ =>
    (leads_effect (Effect.leads_writeText ⟨_, rfl⟩)).bind fun _ => ?_
  refine (leads_need fun _ h => h.halted).bind fun text => ?_
  exact Act.leads_lift (Effect.leads_writeText ⟨_, rfl⟩) (fun _ _ h => h.1) fun _ h => h.1.halted

theorem leads_saveContracts (hname : w₀.draftName = some name) (text : String) :
    saveContracts.Leads st (SavesContracts st name text)
      (fun w => Still w₀ I w ∧ w.contracts = some text)
      (fun _ w => Still w₀ I w ∧ (text = "" → w.contracts = some "")) (Halted H I) := by
  refine .value_bind (fun s _ hs => need_apply hs.2) (.ite (fun hne => ?_) fun heq => .pure ?_)
  · have hpath : ∀ w, Still w₀ I w → w.draftName = some name := fun _ h => h.draftName.trans hname
    refine .bind (K := fun _ => Still w₀ I) (Act.leads_modifyFocus fun _ h => ?_) fun _ =>
      leads_draftPath_bind hpath (leads_draftPath_bind hpath (leads_draftPath_bind hpath ?_))
    · exact ⟨h.1.file, h.1.draftName, h.1.source, h.1.conversation⟩
    refine (leads_effect (Effect.leads_remark _)).bind fun _ =>
      (leads_effect (Effect.leads_writeText .contracts)).bind fun _ =>
      (leads_effect (Effect.leads_remark _)).bind fun _ => ?_
    refine Act.leads_lift (Merge.leads_annotate .annotated .within) (fun _ _ h => ⟨h, ?_⟩)
      fun _ h => h.halted
    rintro rfl
    simp at hne
  · exact fun w h => ⟨h.1, fun ht => ht ▸ h.2⟩

/-- Whatever the contracts are, and if they are set. -/
theorem leads_saveContracts_any (hname : w₀.draftName = some name) :
    saveContracts.Leads st (fun e => ∃ text, SavesContracts st name text e) (Still w₀ I)
      (fun _ => Still w₀ I) (Halted H I) := by
  intro s hst hs
  cases hc : s.focus.contracts with
  | some text =>
    exact (leads_saveContracts hname text).mono (fun _ h => ⟨text, h⟩) (fun _ => id)
      (fun _ _ h => h.1) (fun _ => id) s hst ⟨hs, hc⟩
  | none =>
    rw [saveContracts, ends_bind, Ends, need_apply_none hc]
    exact ⟨hs.halted, .refl _⟩

theorem leads_saveHarnesses (hname : w₀.draftName = some name) :
    saveHarnesses.Leads st (SavesHarnesses st name) (Still w₀ I) (fun _ => Still w₀ I)
      (Halted H I) := by
  have hpath : ∀ w, Still w₀ I w → w.draftName = some name := fun _ h => h.draftName.trans hname
  refine leads_needed.bind fun harnesses => .ite (fun _ => ?_) fun _ => .pure fun _ => id
  refine (leads_effect (Effect.leads_remark _)).bind fun _ =>
    leads_draftPath_bind hpath (leads_draftPath_bind hpath (.get_bind fun s _ _ => ?_))
  refine .ite (fun _ => ?_) fun _ => leads_clearHarnesses
  refine (leads_effect (Effect.leads_writeText (.harnesses _))).bind fun _ =>
    (leads_effect (Effect.leads_format .format .harnesses)).bind fun _ =>
    (leads_effect (Effect.leads_openFile _)).bind fun content =>
    (leads_effect (Effect.leads_appendText .annotated)).bind fun _ =>
    (leads_effect (Effect.leads_decode content)).bind fun _ => ?_
  exact leads_effect (Effect.leads_appendText .annotated)

end

end Worker

/-! ## The arbiter -/

namespace Arbiter

variable {α : Type} {st : Settings} {P : Event → Prop} {H : Datum → Prop}
  {I : Conversation → Prop}

/-- An arbiter with a conversation in `I`. -/
abbrev Still (I : Conversation → Prop) (a : Arbiter) : Prop := I a.conversation

/-- How the arbiter is left when an operation on it is stopped. -/
abbrev Halted (H : Datum → Prop) (I : Conversation → Prop) (a : Arbiter) : Prop :=
  Stopped H I a.conversation

theorem leads_talk {act : Act Conversation α} {J D : Conversation → Prop}
    {K : α → Conversation → Prop} (h : act.Leads st P J K D) :
    (talk act).Leads st P (Still J) (fun v => Still (K v)) (Still D) :=
  Act.leads_zoom h (fun _ ha => ha) (fun _ _ _ _ hc => hc) fun _ _ _ hc => hc

theorem brings_talk {act : Act Conversation α} {A D : Conversation → Prop}
    {B : α → Conversation → Prop} {T T' T'' : World → Prop}
    (h : Brings (Act.At st A T) (fun v => Act.At st (B v) T') (fun _ => Act.At st D T'') act) :
    Brings (Act.At st (Still A) T) (fun v => Act.At st (Still (B v)) T')
      (fun _ => Act.At st (Still D) T'') (talk act) :=
  Act.brings_zoom h (fun _ hs => ⟨hs.settings, hs.focus, hs.world⟩)
    (fun _ _ _ _ ht => ⟨ht.settings, ht.focus, ht.world⟩)
    fun _ _ _ _ ht => ⟨ht.settings, ht.focus, ht.world⟩

theorem leads_effect {e : Effect α} (he : e.Leads P) :
    (Act.lift e).Leads st P (Still I) (fun _ => Still I) (Halted H I) :=
  Act.leads_lift he (fun _ _ => id) fun _ h => .answered (.same h)

theorem leads_setGrade (g : Int) :
    (setGrade g).Leads st P (Still I) (fun _ => Still I) (Halted H I) :=
  Act.leads_modifyFocus fun _ h => h

/-- What a check of the code does. -/
inductive Checks (I : Conversation → Prop) : Event → Prop
  | said {e : Event} : Said I e → Checks I e
  | run (command : List String) (directory : Option String) : Checks I (.run command directory)

/-- What is done up to a grade of the output. -/
inductive Asks (I : Conversation → Prop) (output : String) : Event → Prop
  | said {e : Event} : Said I e → Asks I output e
  | grading : Asks I output (.grading output)

variable (hI : Stable H I)

include hI

theorem leads_ask : ask.Leads st (Said I) (Still I) (fun _ => Still I) (Halted H I) :=
  leads_talk hI.ask

theorem leads_tell (text : String) :
    (tell text).Leads st P (Still I) (fun _ => Still I) (Halted H I) :=
  leads_talk (hI.tellBoth text "")

omit hI in
/-- The grade is asked for in `A`, with the request in `B`. -/
theorem leads_requestGrade_of {A B D : Conversation → Prop}
    (htell : (Conversation.tell gradeRequest).Leads st P A (fun _ => B) D)
    (hask : Conversation.ask.Leads st P B (fun _ => I) D) (hD : ∀ c, I c → D c) :
    requestGrade.Leads st P (Still A) (fun _ => Still I) (Still D) := by
  have hend : (do
      let g := (← Act.focus).grade
      if 1 ≤ g && g ≤ 5 then Effect.remark ("\tGrade: " ++ toString g ++ "/5")
      return g : Act Arbiter Int).Leads st P (Still I) (fun _ => Still I) (Still D) := by
    refine .focus_bind fun a _ => ?_
    refine .ite (p := (1 ≤ a.grade && a.grade ≤ 5) = true) (fun _ => ?_) fun _ => .pure fun _ => id
    exact .bind (Act.leads_lift (K := fun _ => Still I) (Effect.leads_remark _) (fun _ _ => id)
      fun _ => hD _) fun _ => .pure fun _ => id
  refine (leads_talk htell).bind fun _ => (leads_talk hask).bind fun reply => ?_
  refine .get_bind fun s _ _ => ?_
  dsimp only
  cases gradeIn? s.world.digits reply with
  | some g => exact .bind (K := fun _ => Still I) (Act.leads_modifyFocus fun _ => id) fun _ => hend
  | none => exact hend

theorem leads_requestGrade :
    requestGrade.Leads st (Said I) (Still I) (fun _ => Still I) (Halted H I) :=
  leads_requestGrade_of (hI.tellBoth _ _) hI.ask fun _ h => .answered (.same h)

theorem leads_advise : advise.Leads st (Said I) (Still I) (fun _ => Still I) (Halted H I) := by
  refine .focus_bind fun a _ => .ite (fun _ => .pure fun _ => id) fun _ => ?_
  exact (leads_effect (Effect.leads_remark _)).bind fun _ => (leads_tell hI _).bind fun _ =>
    leads_ask hI

theorem leads_logReasons :
    logReasons.Leads st (Said I) (Still I) (fun _ => Still I) (Halted H I) := by
  refine .focus_bind fun a _ => .ite (fun _ => ?_) fun _ => .pure fun _ => id
  exact (leads_tell hI _).bind fun _ => (leads_ask hI).bind fun _ =>
    leads_effect (Effect.leads_log _)

/-- Whatever comes of the check, a conversation that was too long has been cut. -/
theorem leads_compiles :
    compiles.Leads st (Checks I) (Still I) (fun _ => Halted H I) (Halted H I) := by
  have hrun (command : List String) (directory : Option String) :
      (Effect.record (.run command directory)).Leads (Checks I) :=
    Effect.leads_record (.run _ _) fun _ => rfl
  have hgo {v : Bool} :
      (pure v : Act Arbiter Bool).Leads st (Checks I) (Still I) (fun _ => Halted H I)
        (Halted H I) := .pure fun _ h => .answered (.same h)
  refine (leads_effect (Effect.leads_remark _)).bind fun _ => .settings_bind ?_
  refine .ite (fun _ => (leads_effect (Effect.leads_remark _)).bind fun _ => hgo) fun _ => ?_
  refine .get_bind fun s _ _ => (leads_effect (hrun _ _)).bind fun _ => ?_
  refine .ite (fun _ => (leads_effect (Effect.leads_remark _)).bind fun _ => hgo) fun _ => ?_
  refine (leads_effect (hrun _ _)).bind fun _ => ?_
  cases s.world.tools.kani st.sourceDir s.world.disk with
  | none =>
    exact Act.leads_lift (Effect.leads_fail _) (fun _ _ h => .answered (.same h))
      fun _ h => .answered (.same h)
  | some output =>
    refine .ite (fun _ => (leads_effect (Effect.leads_remark _)).bind fun _ => hgo) fun _ => ?_
    refine .bind (K := fun _ => Halted H I) (leads_onInputTooLong ?_ ?_) fun _ => .pure fun _ => id
    · refine (leads_tell hI _).bind fun _ => .bind (K := fun _ => Still I) ?_ fun _ =>
        .pure fun _ h => .answered (.same h)
      exact (leads_ask hI).mono (fun _ => .said) (fun _ => id) (fun _ _ => id) fun _ => id
    · exact Act.leads_lift (Effect.leads_say _) (fun _ _ => id) fun _ => id

/-! ### Grades

A grade is noted at the end, so what holds of the world changes there, from `T` to `T'`. -/

section

variable {T : World → Prop} {T' : Int → World → Prop} {output : String}
  (hT : ∀ {w w'}, T w → w.Leads (Asks I output) w' → T w')
  (hT' : ∀ g w, T w → T' g (w.noting (.graded output g)))

include hT hT'

theorem brings_gradeOf :
    Brings (Act.At st (Still I) T) (fun g => Act.At st (Still I) (T' g))
      (fun _ => Act.At st (Halted H I) T) (gradeOf output) := by
  have hgrading : (Act.lift (Effect.record (.grading output))).Leads st (Asks I output) (Still I)
      (fun _ => Still I) (Halted H I) :=
    leads_effect (Effect.leads_record .grading fun _ => rfl)
  have hask : requestGrade.Leads st (Asks I output) (Still I) (fun _ => Still I) (Halted H I) :=
    (leads_requestGrade hI).mono (fun _ => .said) (fun _ => id) (fun _ _ => id) fun _ => id
  refine (hgrading.brings hT).bind fun _ => (hask.brings hT).bind fun g => ?_
  refine .bind (Q := fun _ => Act.At st (Still I) (T' g)) (fun s hs => ?_) fun _ =>
    .pure fun _ => id
  exact ⟨hs.settings, hs.focus, hT' g _ hs.world⟩

theorem brings_judgeAgain :
    Brings (Act.At st (Still I) T) (fun g => Act.At st (Still I) (T' g))
      (fun _ => Act.At st (Halted H I) T) (judgeAgain output) := by
  have hask : ask.Leads st (Asks I output) (Still I) (fun _ => Still I) (Halted H I) :=
    (leads_ask hI).mono (fun _ => .said) (fun _ => id) (fun _ _ => id) fun _ => id
  refine ((leads_effect (Effect.leads_remark _)).brings hT).bind fun _ =>
    ((leads_setGrade _).brings hT).bind fun _ => ((leads_tell hI _).brings hT).bind fun _ =>
    (hask.brings hT).bind fun _ => brings_gradeOf hI hT hT'

theorem brings_judgeHarnesses :
    Brings (Act.At st (Still I) T) (fun g => Act.At st (Still I) (T' g))
      (fun _ => Act.At st (Halted H I) T) (judgeHarnesses output) := by
  have hask : ask.Leads st (Asks I output) (Still I) (fun _ => Still I) (Halted H I) :=
    (leads_ask hI).mono (fun _ => .said) (fun _ => id) (fun _ _ => id) fun _ => id
  have hprompt : (talk (Conversation.tellPrompt "harnesses.txt")).Leads st (Asks I output)
      (Still I) (fun _ => Still I) (Halted H I) := leads_talk (hI.tellBoth _ _)
  have hsettings : (Act.lift Effect.settings).Leads st (Asks I output) (Still I)
      (fun _ => Still I) (Halted H I) := leads_effect Effect.leads_settings
  refine (hsettings.brings hT).bind fun _ =>
    ((leads_effect (Effect.leads_remark _)).brings hT).bind fun _ =>
    ((leads_setGrade _).brings hT).bind fun _ => ((leads_tell hI _).brings hT).bind fun _ =>
    (hprompt.brings hT).bind fun _ => (hask.brings hT).bind fun _ =>
    ((leads_tell hI _).brings hT).bind fun _ => (hask.brings hT).bind fun _ =>
    brings_gradeOf hI hT hT'

end

end Arbiter

end Covenant
