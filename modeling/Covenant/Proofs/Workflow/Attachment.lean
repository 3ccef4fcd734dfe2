import Covenant.Proofs.Conversation.Attachment
import Covenant.Proofs.Crew.Draft
import Covenant.Proofs.World.Built

/-!
# The file that a request is about

While a file is worked on, every request of the worker and of the arbiter has its copy attached, at
the mark, and no other document. Both conversations go on from file to file: the document of the
file before is dropped when the next one is attached, also when the work was stopped in between.
-/

namespace Covenant

open Conversation Crew

/-- Where the copy of a file goes. -/
def Settings.copyPath (st : Settings) (file : String) : String :=
  st.draftPath (Worker.draftNameOf st.sourceDir file) ".rs"

/-- No file is taken on. -/
def Untaken (es : List Event) : Prop := ∀ file text, Event.take file text ∉ es

/-- The last file that was taken on is this one, with this text. -/
def Taken (file source : String) (es : List Event) : Prop :=
  ∃ front back, es = front ++ .take file source :: back ∧ Untaken back

/-- The last file that was taken on is this one, and since then its text was written to its copy. -/
def Copied (st : Settings) (file source : String) (es : List Event) : Prop :=
  ∃ front back, es = front ++ .take file source :: back ∧ Untaken back ∧
    .write (st.copyPath file) (.text source) ∈ back

/-- The conversation has the copy of the file attached. -/
abbrev Presents (st : Settings) (file source : String) : Conversation → Prop :=
  Shows (Path.stem (st.copyPath file)) (Text.base64 (Content.utf8 source))

/-- A request has the copy of the file attached that was taken on last, and no other document; one
that comes before any file has none. -/
def AboutFile (st : Settings) (before : List Event) (e : Event) : Prop :=
  ∀ model system messages mark, e = .request model system messages mark →
    (Untaken before ∧ ∀ m ∈ messages, m.isAttachment = false) ∨
    ∃ file source, Copied st file source before ∧
      Attaches (Path.stem (st.copyPath file)) (Text.base64 (Content.utf8 source)) messages mark

section History

variable {st : Settings} {file source : String} {es : List Event} {e : Event}

theorem Aside.aboutFile (h : Aside e) : AboutFile st es e := by
  rintro model system messages mark rfl
  cases h

theorem Aside.ne_take (h : Aside e) : ∀ f t, e ≠ .take f t := by
  rintro f t rfl
  cases h

theorem Untaken.concat (h : Untaken es) (he : ∀ f t, e ≠ .take f t) : Untaken (es ++ [e]) := by
  intro f t hm
  rcases List.mem_append.1 hm with hm | hm
  · exact h f t hm
  · exact he f t (List.mem_singleton.1 hm).symm

theorem Taken.concat (h : Taken file source es) (he : ∀ f t, e ≠ .take f t) :
    Taken file source (es ++ [e]) := by
  obtain ⟨front, back, rfl, hno⟩ := h
  exact ⟨front, back ++ [e], by simp, hno.concat he⟩

theorem Copied.concat (h : Copied st file source es) (he : ∀ f t, e ≠ .take f t) :
    Copied st file source (es ++ [e]) := by
  obtain ⟨front, back, rfl, hno, hm⟩ := h
  exact ⟨front, back ++ [e], by simp, hno.concat he, List.mem_append_left _ hm⟩

theorem Taken.copied (h : Taken file source es) :
    Copied st file source (es ++ [.write (st.copyPath file) (.text source)]) := by
  obtain ⟨front, back, rfl, hno⟩ := h
  refine ⟨front, back ++ [.write (st.copyPath file) (.text source)], by simp,
    hno.concat (by simp), ?_⟩
  exact List.mem_append_right _ List.mem_cons_self

/-- What is said with the copy attached is about the file. -/
theorem Copied.said (h : Copied st file source es) (he : Said (Presents st file source) e) :
    Copied st file source (es ++ [e]) ∧ AboutFile st es e := by
  cases he with
  | @request c hc =>
    refine ⟨h.concat (by simp [Conversation.request]), ?_⟩
    rintro model system messages mark heq
    obtain ⟨-, -, rfl, rfl⟩ := Event.request.inj heq
    exact .inr ⟨file, source, h, hc.attaches⟩
  | wait n => exact ⟨h.concat (Aside.wait n).ne_take, (Aside.wait n).aboutFile⟩
  | close => exact ⟨h.concat Aside.close.ne_take, Aside.close.aboutFile⟩

theorem Copied.aside (h : Copied st file source es) (he : Aside e) :
    Copied st file source (es ++ [e]) ∧ AboutFile st es e := ⟨h.concat he.ne_take, he.aboutFile⟩

end History

/-! ## Keeping to the file -/

section Plan

variable (st : Settings) (past : List Event) (file source : String)

/-- The history during the work on the file. -/
abbrev OnFile : World → Prop := World.Tells past (AboutFile st) (Copied st file source)

/-- The history between two files. -/
abbrev OffFile : World → Prop := World.Tells past (AboutFile st) fun _ => True

/-- Both conversations have the copy of the file attached. -/
def filePlan (w₀ : Worker) : Plan where
  settings := st
  worker := w₀
  heard m := m.hasRole "assistant" = true
  said := Presents st file source
  heardByArbiter m := m.hasRole "assistant" = true
  saidByArbiter := Presents st file source
  during := OnFile st past file source
  after := OffFile st past

variable {st past file source}

theorem onFile_asks {output : String} {w w' : World} (hw : OnFile st past file source w)
    (hl : w.Leads (Arbiter.Asks (Presents st file source) output) w') :
    OnFile st past file source w' := by
  refine hw.leads hl fun es e hes he => ?_
  cases he with
  | said he => exact hes.said he
  | grading => exact hes.aside (.grading _)

theorem onFile_graded {output : String} (g : Int) (w : World) (hw : OnFile st past file source w) :
    OnFile st past file source (w.noting (.graded output g)) :=
  hw.noting fun _ hes => hes.aside (.graded _ _)

/-- An assessment by the arbiter keeps to the file. -/
theorem kept_judge {w₀ : Worker} {act : Act Arbiter Int}
    (h : Brings (Act.At st (Arbiter.Still (Presents st file source)) (OnFile st past file source))
      (fun _ => Act.At st (Arbiter.Still (Presents st file source)) (OnFile st past file source))
      (fun _ => Act.At st (Arbiter.Halted (fun m => m.hasRole "assistant" = true)
        (Presents st file source)) (OnFile st past file source)) act) :
    (filePlan st past file source w₀).Kept (byArbiter act) := by
  refine Act.brings_zoom h (fun s hs => ⟨hs.settings, hs.arbiter, hs.world⟩) ?_ ?_
  · exact fun s g t hs ht => ⟨ht.settings, hs.worker, ht.focus, ht.world⟩
  · exact fun s e t hs ht =>
      ⟨ht.settings, hs.worker.halted, ht.focus, ht.world.mono fun _ _ => trivial⟩

theorem filePlan_sound {w₀ : Worker} (hname : w₀.draftName.isSome) :
    (filePlan st past file source w₀).Sound where
  name := hname
  worker := stable_shows _ _
  arbiter := stable_shows _ _
  works {w w'} hw hl := by
    refine World.Tells.follows hw hl fun es e hes he => ?_
    cases he with
    | worker he => exact hes.said he
    | arbiter he => exact hes.said he
    | write path c => exact hes.aside (.write _ _)
    | run command directory => exact hes.aside (.run _ _)
  ends hw := hw.mono fun _ _ => trivial
  again _ := kept_judge (Arbiter.brings_judgeAgain (stable_shows _ _) onFile_asks onFile_graded)
  harnesses _ :=
    kept_judge (Arbiter.brings_judgeHarnesses (stable_shows _ _) onFile_asks onFile_graded)

end Plan

/-! ## Taking on a file -/

section Opening

variable {st : Settings} {past : List Event} {file source : String}

/-- The worker has been given the file. -/
structure Worker.HasFile (st : Settings) (file source : String) (w : Worker) : Prop where
  draftName : w.draftName = some (Worker.draftNameOf st.sourceDir file)
  file : w.file = file
  source : w.source = some source

theorem offFile_aside {P : Event → Prop} (hP : ∀ e, P e → Aside e) {w w' : World}
    (hw : OffFile st past w) (hl : w.Leads P w') : OffFile st past w' :=
  hw.leads hl fun _ e _ he => ⟨trivial, (hP e he).aboutFile⟩

/-- A worker that takes on a file. -/
theorem brings_take (file : String) :
    Brings (Act.At st (fun w : Worker => w.conversation.Settled) (OffFile st past))
      (fun _ s => ∃ source, Act.At st
        (fun w => w.HasFile st file source ∧ w.conversation.Settled)
        (World.Tells past (AboutFile st) (Taken file source)) s)
      (fun _ => Act.At st (fun w : Worker => w.conversation.Settled) (OffFile st past))
      (Worker.take file) := by
  refine .value_bind (fun _ hs => Act.settings_apply hs.settings) ?_
  refine .bind (Q := fun _ => Act.At st (fun w : Worker => w.file = file ∧
    w.draftName = some (Worker.draftNameOf st.sourceDir file) ∧ w.conversation.Settled)
    (OffFile st past)) (fun s hs => ⟨hs.settings, ⟨rfl, rfl, hs.focus⟩, hs.world⟩) fun _ => ?_
  refine .bind ((Act.leads_lift (K := fun _ w => _) (Worker.leads_sourceText (.fetch _))
    (fun _ _ => id) fun _ h => h.2.2).brings (offFile_aside fun _ => id)) fun text => ?_
  refine .bind (Q := fun _ => Act.At st (fun w : Worker => w.HasFile st file text ∧
    w.conversation.Settled) (OffFile st past)) (fun s hs => ?_) fun _ s hs => ?_
  · exact ⟨hs.settings, ⟨⟨hs.focus.2.1, hs.focus.1, rfl⟩, hs.focus.2.2⟩, hs.world⟩
  · refine ⟨text, hs.settings, hs.focus, hs.world.noting fun es _ => ⟨?_, ?_⟩⟩
    · exact ⟨es, [], rfl, by simp [Untaken]⟩
    · rintro model system messages mark heq
      cases heq

/-- The history during the work on the file, when its copy has just been made. -/
structure Fresh (st : Settings) (past : List Event) (file source : String) (w : World) : Prop where
  onFile : OnFile st past file source w
  read : w.disk.read (st.copyPath file) = .ok (.text source)

theorem Fresh.said {w w' : World} (hw : Fresh st past file source w)
    (hl : w.Leads (Said (Presents st file source)) w') : Fresh st past file source w' := by
  have hno : ∀ path c, ¬ Said (Presents st file source) (.write path c) := by
    intro path c h
    cases h
  exact ⟨hw.onFile.leads hl fun es e hes he => hes.said he,
    hl.read hno (w.offLog_append _ (by decide) (by decide)) hw.read⟩

/-- Nothing but what the user sees. -/
theorem Fresh.silent {w w' : World} (hw : Fresh st past file source w)
    (hl : w.Leads (fun _ => False) w') : Fresh st past file source w' :=
  hw.said (hl.mono fun _ h => h.elim)

theorem Fresh.offFile {w : World} (hw : Fresh st past file source w) : OffFile st past w :=
  hw.onFile.mono fun _ _ => trivial

/-- A step of the opening: where it is stopped, the next file can be taken on. -/
theorem brings_opening {σ α : Type} (view : σ → Conversation) {P : Event → Prop} {J : σ → Prop}
    {K : α → σ → Prop} {T : World → Prop} {act : Act σ α}
    (h : act.Leads st P J K fun x => (view x).Settled)
    (hT : ∀ {w w'}, T w → w.Leads P w' → T w') (hoff : ∀ w, T w → OffFile st past w) :
    Brings (Act.At st J T) (fun a => Act.At st (K a) T)
      (fun _ => Act.At st (fun x => (view x).Settled) (OffFile st past)) act :=
  (h.brings hT).mono (fun _ => id) (fun _ _ => id)
    fun _ _ ht => ⟨ht.settings, ht.focus, hoff _ ht.world⟩

/-- The copy of the file is added to a conversation without a document. -/
def Adds (st : Settings) (file source : String) (c : Conversation) : Prop :=
  ∃ c₀ text, Clear c₀ ∧ c = c₀.push (.user [.text text,
    .document (Path.stem (st.copyPath file)) (Text.base64 (Content.utf8 source))])

theorem brings_attachWith (text : String) :
    Brings (Act.At st Clear (Fresh st past file source))
      (fun _ => Act.At st (Adds st file source) (Fresh st past file source))
      (fun _ => Act.At st Settled (OffFile st past)) (attachWith text (st.copyPath file)) := by
  rintro ⟨c, w⟩ hs
  refine (ends_attachWith text _ c w).mono ?_ ?_
  · rintro _ _ ⟨content, hload, rfl⟩
    obtain rfl := Except.ok.inj ((Disk.read_of_load hload).symm.trans hs.world.read)
    exact ⟨hs.settings, ⟨c, text, hs.focus, rfl⟩, hs.world⟩
  · rintro _ _ rfl
    exact ⟨hs.settings, .inl hs.focus, hs.world.offFile⟩

theorem brings_markLast :
    Brings (Act.At st (Adds st file source) (Fresh st past file source))
      (fun _ => Act.At st (Presents st file source) (Fresh st past file source))
      (fun _ => Act.At st Settled (OffFile st past)) (Act.modifyFocus markLast) := by
  intro s hs
  obtain ⟨c₀, text, hc, heq⟩ := hs.focus
  have hmark : Presents st file source s.focus.markLast := by
    rw [heq]
    exact hc.attach text
  exact ⟨hs.settings, hmark, hs.world⟩

section

variable {w₀ : Worker} (hw₀ : w₀.HasFile st file source)

include hw₀

theorem brings_storeSource :
    Brings (Act.At st (w₀.Still Settled) (World.Tells past (AboutFile st) (Taken file source)))
      (fun _ => Act.At st (w₀.Still Settled) (Fresh st past file source))
      (fun _ => Act.At st (fun w => w.conversation.Settled) (OffFile st past))
      Worker.storeSource := by
  have hstep {e : Effect Unit} (he : e.Leads Aside) :
      Brings (Act.At st (w₀.Still Settled) (World.Tells past (AboutFile st) (Taken file source)))
        (fun _ => Act.At st (w₀.Still Settled)
          (World.Tells past (AboutFile st) (Taken file source)))
        (fun _ => Act.At st (fun w => w.conversation.Settled) (OffFile st past)) (Act.lift e) := by
    refine brings_opening Worker.conversation (Act.leads_lift he (fun _ _ => id)
      fun _ h => h.conversation) (fun hw hl => ?_) fun _ hw => hw.mono fun _ _ => trivial
    exact hw.leads hl fun es e hes he => ⟨hes.concat he.ne_take, he.aboutFile⟩
  refine .value_bind (fun s hs => hs.settings ▸ Worker.draftPath_apply
    (hs.focus.draftName.trans hw₀.draftName) ".rs") ?_
  refine (hstep (Effect.leads_remark _)).bind fun _ =>
    .value_bind (fun _ hs => Act.settings_apply hs.settings) ?_
  refine (hstep (Effect.leads_makeDirectory _)).bind fun _ =>
    (hstep (Effect.leads_writeText (.write _ _))).bind fun _ => ?_
  refine .value_bind (fun s hs => Worker.need_apply (hs.focus.source.trans hw₀.source)) ?_
  refine fun s hs => Act.ends_lift.2 (Effect.ends_writeText (fun d hd => ?_) fun _ => ?_)
  · refine ⟨hs.settings, hs.focus, hs.world.noting fun es hes => ⟨hes.copied, ?_⟩,
      Disk.read_write_self hd⟩
    exact (Aside.write _ _).aboutFile
  · exact ⟨hs.settings, hs.focus.conversation, hs.world.mono fun _ _ => trivial⟩

theorem brings_presentSource :
    Brings (Act.At st (w₀.Still Settled) (Fresh st past file source))
      (fun _ => Act.At st (w₀.Still (Presents st file source)) (Fresh st past file source))
      (fun _ => Act.At st (fun w => w.conversation.Settled) (OffFile st past))
      Worker.presentSource := by
  refine .value_bind (fun _ hs => Act.settings_apply hs.settings) ?_
  refine .bind (brings_opening Worker.conversation (Act.leads_lift (K := fun _ => w₀.Still Settled)
    (Effect.leads_remark _) (fun _ _ => id) fun _ h => h.conversation) Fresh.silent
    fun _ => Fresh.offFile) fun _ => ?_
  refine .bind (brings_opening Worker.conversation (Worker.leads_talk leads_dropMarked) Fresh.silent
    fun _ => Fresh.offFile) fun _ => ?_
  refine .value_bind (fun s hs => hs.settings ▸ Worker.draftPath_apply
    (hs.focus.draftName.trans hw₀.draftName) ".rs") ?_
  exact (Worker.brings_talk (brings_attachWith _)).bind fun _ => Worker.brings_talk brings_markLast

theorem brings_draftContracts (hfile : file ≠ "") :
    Brings (Act.At st (w₀.Still Settled) (World.Tells past (AboutFile st) (Taken file source)))
      (fun _ => Act.At st (w₀.Still (Presents st file source)) (Fresh st past file source))
      (fun _ => Act.At st (fun w => w.conversation.Settled) (OffFile st past))
      Worker.draftContracts := by
  have hquiet {α : Type} {act : Act Worker α} {K : α → Worker → Prop}
      (h : act.Leads st (fun _ => False) (w₀.Still Settled) K fun w => w.conversation.Settled) :
      Brings (Act.At st (w₀.Still Settled) (World.Tells past (AboutFile st) (Taken file source)))
        (fun v => Act.At st (K v) (World.Tells past (AboutFile st) (Taken file source)))
        (fun _ => Act.At st (fun w => w.conversation.Settled) (OffFile st past)) act :=
    brings_opening Worker.conversation h (fun hw hl => hw.leads hl fun _ _ _ h => h.elim)
      fun _ hw => hw.mono fun _ _ => trivial
  have htalk {act : Act Conversation Unit}
      (h : act.Leads st (fun _ => False) Settled (fun _ => Settled)
        (Stopped (fun m => m.hasRole "assistant" = true) Settled)) :
      Brings (Act.At st (w₀.Still Settled) (Fresh st past file source))
        (fun _ => Act.At st (w₀.Still Settled) (Fresh st past file source))
        (fun _ => Act.At st (fun w => w.conversation.Settled) (OffFile st past))
        (Worker.talk act) :=
    brings_opening Worker.conversation ((Worker.leads_talk h).mono (fun _ => id) (fun _ => id)
      (fun _ _ => id) fun _ => settled_of_stopped) Fresh.silent fun _ => Fresh.offFile
  refine Act.brings_focus_bind fun s hs => .ite (fun h => ?_) fun _ => ?_
  · rw [hs.focus.file, hw₀.file] at h
    exact absurd (by simpa using h) hfile
  refine .bind (hquiet (Act.leads_lift (K := fun _ => w₀.Still Settled) (Effect.leads_remark _)
    (fun _ _ => id) fun _ h => h.conversation)) fun _ => ?_
  refine .bind (hquiet (K := fun _ => w₀.Still Settled) (Act.leads_modifyFocus fun _ h =>
    ⟨h.file, h.draftName, h.source, h.conversation⟩)) fun _ => ?_
  refine (brings_storeSource hw₀).bind fun _ => (htalk (stable_settled.setSystem _ _)).bind fun _ =>
    (htalk (stable_settled.tellBoth _ _)).bind fun _ => (brings_presentSource hw₀).bind fun _ => ?_
  exact brings_opening Worker.conversation ((Worker.leads_drafting (stable_shows _ _)).mono
    (fun _ => id) (fun _ => id) (fun _ _ => id) fun _ h => settled_of_stopped
      (h.mono fun _ h => .inr ⟨_, _, h⟩)) Fresh.said fun _ => Fresh.offFile

omit hw₀ in
theorem brings_selfReview :
    Brings (Act.At st (w₀.Still (Presents st file source)) (Fresh st past file source))
      (fun _ => Act.At st (w₀.Still (Presents st file source)) (Fresh st past file source))
      (fun _ => Act.At st (fun w => w.conversation.Settled) (OffFile st past))
      Worker.selfReview :=
  brings_opening Worker.conversation ((Worker.leads_selfReview (stable_shows _ _)).mono
    (fun _ => id) (fun _ => id) (fun _ _ h => h.1) fun _ h => settled_of_stopped
      (h.mono fun _ h => .inr ⟨_, _, h⟩)) Fresh.said fun _ => Fresh.offFile

end

/-- The first assessment attaches the copy of the file for the arbiter. -/
theorem brings_judgeContracts (contracts : String) :
    Brings (Act.At st (fun a : Arbiter => a.conversation.Settled) (Fresh st past file source))
      (fun _ => Act.At st (Arbiter.Still (Presents st file source)) (OnFile st past file source))
      (fun _ => Act.At st (fun a : Arbiter => a.conversation.Settled) (OffFile st past))
      (Arbiter.judgeContracts (st.copyPath file) contracts) := by
  have hsettled : ∀ a : Arbiter, Stopped (fun m => m.hasRole "assistant" = true)
      (Presents st file source) a.conversation → a.conversation.Settled :=
    fun _ h => settled_of_stopped (h.mono fun _ h => .inr ⟨_, _, h⟩)
  have hquiet {α : Type} {act : Act Arbiter α} {J : Arbiter → Prop} {K : α → Arbiter → Prop}
      (h : act.Leads st (fun _ => False) J K fun a => a.conversation.Settled) :
      Brings (Act.At st J (Fresh st past file source))
        (fun v => Act.At st (K v) (Fresh st past file source))
        (fun _ => Act.At st (fun a : Arbiter => a.conversation.Settled) (OffFile st past)) act :=
    brings_opening Arbiter.conversation h Fresh.silent fun _ => Fresh.offFile
  refine .value_bind (fun _ hs => Act.settings_apply hs.settings) ?_
  refine .bind (hquiet (Act.leads_lift (K := fun _ a => a.conversation.Settled)
    (Effect.leads_remark _) (fun _ _ => id) fun _ => id)) fun _ => ?_
  refine .bind (hquiet (K := fun _ a => a.conversation.Settled)
    (Act.leads_modifyFocus fun _ => id)) fun _ => ?_
  refine .bind (hquiet ((Arbiter.leads_talk (stable_settled.setSystem _ _)).mono (fun _ => id)
    (fun _ => id) (fun _ _ => id) fun _ => settled_of_stopped)) fun _ => ?_
  refine .bind (hquiet (Arbiter.leads_talk leads_dropMarked)) fun _ =>
    (Arbiter.brings_talk (brings_attachWith _)).bind fun _ =>
    (Arbiter.brings_talk brings_markLast).bind fun _ =>
    .value_bind (fun _ hs => Act.settings_apply hs.settings) ?_
  have hask : Brings (Act.At st (Arbiter.Still (Presents st file source))
      (Fresh st past file source))
      (fun _ => Act.At st (Arbiter.Still (Presents st file source)) (OnFile st past file source))
      (fun _ => Act.At st (fun a : Arbiter => a.conversation.Settled) (OffFile st past)) (do
        let _ ← Arbiter.ask
        Arbiter.gradeOf contracts) := by
    refine .bind (brings_opening Arbiter.conversation ((Arbiter.leads_ask (stable_shows _ _)).mono
      (fun _ => id) (fun _ => id) (fun _ _ => id) hsettled) Fresh.said fun _ => Fresh.offFile)
      fun _ => ?_
    refine (Arbiter.brings_gradeOf (stable_shows _ _) onFile_asks onFile_graded).mono ?_
      (fun _ _ => id) ?_
    · exact fun _ hs => ⟨hs.settings, hs.focus, hs.world.onFile⟩
    · exact fun _ _ ht => ⟨ht.settings, hsettled _ ht.focus, ht.world.mono fun _ _ => trivial⟩
  refine .ite (fun _ => ?_) fun _ => hask
  exact .bind (hquiet ((Arbiter.leads_talk ((stable_shows _ _).tellBoth _ _)).mono (fun _ => id)
    (fun _ => id) (fun _ _ => id) hsettled)) fun _ => hask

end Opening

/-! ## File after file -/

section Files

variable {st : Settings} {past : List Event}

/-- The crew can take on a file. -/
abbrev Ready (st : Settings) (past : List Event) : Scene Crew → Prop :=
  Act.At st (fun crew => crew.worker.conversation.Settled ∧ crew.arbiter.conversation.Settled)
    (OffFile st past)

theorem Plan.Left.ready {file source : String} {w₀ : Worker} {s : Scene Crew}
    (h : (filePlan st past file source w₀).Left (OffFile st past) s) : Ready st past s :=
  ⟨h.settings, ⟨settled_of_stopped (h.worker.mono fun _ h => .inr ⟨_, _, h⟩),
    settled_of_stopped (h.arbiter.mono fun _ h => .inr ⟨_, _, h⟩)⟩, h.world⟩

/-- What the worker does while the arbiter waits for the file. -/
theorem brings_byWorker {α : Type} {act : Act Worker α} {J : Worker → Prop}
    {K : α → Worker → Prop} {T T' : World → Prop}
    (h : Brings (Act.At st J T) (fun v => Act.At st (K v) T')
      (fun _ => Act.At st (fun w => w.conversation.Settled) (OffFile st past)) act) :
    Brings (Act.At st (fun crew => J crew.worker ∧ crew.arbiter.conversation.Settled) T)
      (fun v => Act.At st (fun crew => K v crew.worker ∧ crew.arbiter.conversation.Settled) T')
      (fun _ => Ready st past) (byWorker act) :=
  Act.brings_zoom h (fun _ hs => ⟨hs.settings, hs.focus.1, hs.world⟩)
    (fun _ _ _ hs ht => ⟨ht.settings, ⟨ht.focus, hs.focus.2⟩, ht.world⟩)
    fun _ _ _ hs ht => ⟨ht.settings, ⟨ht.focus, hs.focus.2⟩, ht.world⟩

theorem brings_draft {file : String} (hfile : file ≠ "") :
    Brings (Ready st past)
      (fun _ s => ∃ source w₀, w₀.draftName.isSome ∧ (filePlan st past file source w₀).Steady s)
      (fun _ => Ready st past) (Workflow.draft file) := by
  refine .bind (Q := fun _ s => ∃ source w₀, Worker.HasFile st file source w₀ ∧ Act.At st
    (fun crew : Crew => w₀.Still Settled crew.worker ∧ crew.arbiter.conversation.Settled)
    (World.Tells past (AboutFile st) (Taken file source)) s) ?_ fun _ => ?_
  · refine Act.brings_zoom (brings_take file) (fun s hs => ⟨hs.settings, hs.focus.1, hs.world⟩)
      ?_ fun s _ t hs ht => ⟨ht.settings, ⟨ht.focus, hs.focus.2⟩, ht.world⟩
    rintro s _ t hs ⟨source, ht⟩
    exact ⟨source, t.focus, ht.focus.1, ht.settings, ⟨⟨rfl, rfl, rfl, ht.focus.2⟩, hs.focus.2⟩,
      ht.world⟩
  rintro s ⟨source, w₀, hw₀, hs⟩
  have hname : w₀.draftName.isSome := Option.isSome_iff_exists.2 ⟨_, hw₀.draftName⟩
  have hplan : (filePlan st past file source w₀).Sound := filePlan_sound hname
  refine Brings.bind (brings_byWorker (brings_draftContracts hw₀ hfile)) (fun _ => ?_) s hs
  refine .bind (brings_byWorker brings_selfReview) fun contracts => ?_
  refine .value_bind (fun s hs => hs.settings ▸ Crew.draftPath_apply
    (hs.focus.1.draftName.trans hw₀.draftName) ".rs") ?_
  refine .bind (Q := fun _ => (filePlan st past file source w₀).Steady) ?_ fun initial => ?_
  · refine Act.brings_zoom (brings_judgeContracts contracts)
      (fun s hs => ⟨hs.settings, hs.focus.2, hs.world⟩)
      (fun s _ t hs ht => ⟨ht.settings, hs.focus.1, ht.focus, ht.world⟩) ?_
    exact fun s _ t hs ht =>
      ⟨ht.settings, ⟨.inr ⟨_, _, hs.focus.1.conversation⟩, ht.focus⟩, ht.world⟩
  · exact (hplan.rounds file initial).mono (fun _ => id) (fun _ _ ht => ⟨source, w₀, hname, ht⟩)
      fun _ _ ht => Plan.Left.ready ht

/-- A file that is there has a name. -/
theorem isAvailable_empty (w : World) : Workflow.isAvailable "" w = .ok false w := by
  have hweb : Workflow.isOnWeb "" = false := by decide
  have hfile : w.disk.hasFile "" = false := by
    simp [Disk.hasFile, Disk.lookup, Disk.locate, Disk.hasZeroByte]
  unfold Workflow.isAvailable
  rw [hweb, if_neg (by simp)]
  show EStateM.Result.ok (w.disk.hasFile "") w = _
  rw [hfile]

theorem brings_processFile (file : String) :
    Brings (Ready st past) (fun _ => Ready st past) (fun _ => Ready st past)
      (Workflow.processFile file) := by
  have hquiet {α : Type} {e : Effect α} (he : e.Leads Aside) :
      Brings (Ready st past) (fun _ => Ready st past) (fun _ => Ready st past) (Act.lift e) :=
    (Act.leads_lift he (fun _ _ => id) fun _ => id).brings (offFile_aside fun _ => id)
  refine .bind (Q := fun there s => Ready st past s ∧ (there = true → file ≠ "")) ?_ fun there => ?_
  · intro s hs
    have hnamed : Ends (Act.lift (Workflow.isAvailable file)) s (fun b _ => b = true → file ≠ "")
        fun _ _ => True := by
      refine Act.ends_lift.2 (ends_iff.2 ⟨fun b w hb htrue hfile => ?_, fun _ _ _ => trivial⟩)
      rw [hfile, isAvailable_empty] at hb
      cases hb
      cases htrue
    exact ((hquiet (Workflow.leads_isAvailable (.fetch _)) s hs).and hnamed).mono (fun _ _ => id)
      fun _ _ h => h.1
  · refine .ite (fun hthere s hs => ?_) fun _ => ?_
    · refine Brings.bind (brings_draft (hs.2 hthere)) (fun grade => ?_) s hs.1
      rintro s ⟨source, w₀, hname, hs⟩
      have hplan : (filePlan st past file source w₀).Sound := filePlan_sound hname
      exact (hplan.rest file grade s hs).mono (fun _ _ => Plan.Left.ready) fun _ _ =>
        Plan.Left.ready
    · exact (hquiet (Effect.leads_remark _)).mono (fun _ h => h.1) (fun _ _ => id) fun _ _ => id

/-- Whatever happens with a file, the next one can be taken on. -/
theorem brings_processFiles (files : List String) :
    Brings (Ready st past) (fun _ => Ready st past) (fun _ => Ready st past)
      (Workflow.processFiles files) := by
  induction files with
  | nil => exact .pure fun _ => id
  | cons file files ih =>
    refine .bind (brings_onInputTooLong (brings_processFile file) ?_) fun _ => ih
    have hskip : Workflow.skipLongFile.Leads Aside :=
      (Effect.leads_say _).bind fun _ => (Effect.leads_say _).bind fun _ => Effect.leads_remark _
    exact (Act.leads_lift hskip (fun _ _ => id) fun _ => id).brings (offFile_aside fun _ => id)

end Files

end Covenant
