import Covenant.Proofs.Crew.Rounds
import Covenant.Proofs.Workflow.Showing

/-!
# What a source is replaced by

A source that is replaced gets what was written last at the path of the annotated file during the
work on it. The one exception: contracts that are empty have nothing saved, however they are graded,
and then a file that an earlier run left at that path takes the place of the source. Where the
result does not compile, the last word is that of the checkout (`processFile_replaces`).
-/

namespace Covenant

open Conversation Crew

/-! ## Drafts -/

section Drafts

variable {st : Settings} {file path : String} {e : Event}

/-- The path of the annotated file. -/
abbrev Settings.annotatedPath (st : Settings) (file : String) : String :=
  st.draftPath (st.nameOf file) "_annotated.rs"

/-- The paths at which drafts of the file are written. The last one is that of a copy of the source
in a directory where the annotated file should be. -/
def Settings.drafts (st : Settings) (file : String) : List String :=
  [st.draftPath (st.nameOf file) ".rs", st.draftPath (st.nameOf file) "_contracts.rs",
    st.annotatedPath file, st.draftPath (st.nameOf file) "_harnesses.rs",
    Path.join (st.annotatedPath file) (Path.base (st.draftPath (st.nameOf file) ".rs"))]

/-- The other drafts do not lead to the place of the annotated file. -/
theorem ofPath_annotated_ne (h : path ∈ st.drafts file) (hne : path ≠ st.annotatedPath file) :
    Location.ofPath (st.annotatedPath file) ≠ Location.ofPath path := by
  have hending {ending : String} (he : Path.IsEnding ending) (hne : "_annotated.rs" ≠ ending) :
      Location.ofPath (st.annotatedPath file) ≠
        Location.ofPath (st.draftPath (st.nameOf file) ending) :=
    Location.ofPath_append_ne (by decide) he hne
  simp only [Settings.drafts, List.mem_cons, List.not_mem_nil, or_false] at h
  rcases h with rfl | rfl | rfl | rfl | hpath
  · exact hending (by decide) (by decide)
  · exact hending (by decide) (by decide)
  · exact absurd rfl hne
  · exact hending (by decide) (by decide)
  · rw [hpath, Settings.join_draftPath]
    have hwithin (b : String) : st.draftPath (st.nameOf file) ("_annotated.rs/" ++ b) =
        st.annotatedPath file ++ "/" ++ b := by
      simp [Settings.draftPath, ← String.toList_inj]
    rw [hwithin]
    exact (Location.ofPath_within_ne ((show Path.IsEnding "_annotated.rs" by decide).append_ne_empty
      _) (Path.isEnding_base (by decide))).symm

/-- The event writes drafts only. -/
def Event.IsDraft (st : Settings) (file : String) (e : Event) : Prop :=
  ∀ path c, e = .write path c → path ∈ st.drafts file

/-- The event writes drafts only, and not the annotated file. -/
def Event.IsEarly (st : Settings) (file : String) (e : Event) : Prop :=
  ∀ path c, e = .write path c → path ∈ st.drafts file ∧ path ≠ st.annotatedPath file

theorem Event.IsEarly.isDraft (h : e.IsEarly st file) : e.IsDraft st file :=
  fun path c he => (h path c he).1

theorem Event.IsEarly.written? (h : e.IsEarly st file) :
    e.written? (st.annotatedPath file) = none := by
  cases e with
  | write path c => exact if_neg (h path c rfl).2
  | _ => rfl

theorem isEarly_of_not_write (h : ∀ path, e.written? path = none) : e.IsEarly st file := by
  rintro path c rfl
  simpa [Event.written?] using h path

end Drafts

/-! ## Annotating -/

/-- The events since `w` are in `Φ`. -/
abbrev World.Since (w : World) (Φ : List Event → Prop) (v : World) : Prop :=
  v.Tells w.trace.events (fun _ _ => True) Φ

/-- Since `w` something was written at the path, unless there is a directory. -/
def World.Fills (path : String) (w v : World) : Prop :=
  w.Since (fun es => ∃ c, .write path c ∈ es) v ∨
    ∃ l, v.disk.locate path = .ok l ∧ v.disk.node? l = some .directory

namespace World.Fills

variable {P : Event → Prop} {w v v' : World} {path : String}

theorem leads (h : w.Fills path v) (hl : v.Leads P v') : w.Fills path v' := by
  rcases h with h | ⟨l, hloc, hn⟩
  · refine .inl (h.leads hl fun es e hes _ => ⟨?_, trivial⟩)
    obtain ⟨c, hc⟩ := hes
    exact ⟨c, List.mem_append_left _ hc⟩
  · obtain ⟨es, -, -, hd⟩ := hl.events
    exact .inr ⟨l, hd.locate hloc, hd.directory hn⟩

theorem since (hw : w.Leads P v) (h : v.Fills path v') : w.Fills path v' := by
  obtain ⟨es, hes, -, -⟩ := hw.events
  refine h.imp ?_ id
  rintro ⟨es', hes', ⟨c, hc⟩, -⟩
  exact ⟨es ++ es', by rw [hes', hes, List.append_assoc], ⟨c, List.mem_append_right _ hc⟩,
    fun _ _ _ _ => trivial⟩

theorem write (c : Content) (d : Disk) :
    w.Fills path ({ w with disk := d }.noting (.write path c)) :=
  .inl ⟨[_], rfl, ⟨c, List.mem_cons_self⟩, fun _ _ _ _ => trivial⟩

end World.Fills

namespace Merge

variable {source contracts output : String}

theorem brings_insertContracts (w : World) :
    Brings (w.Leads fun _ => True)
      (fun written v => w.Leads (fun _ => True) v ∧ (written = true → w.Fills output v))
      (fun _ _ => True) (insertContracts source contracts output) := by
  have hread {α : Type} {x : Effect α} (hx : x.Leads fun _ => True) :
      Brings (w.Leads fun _ => True) (fun _ => w.Leads fun _ => True) (fun _ _ => True) x :=
    (hx.brings fun hw hl => hw.trans hl).mono (fun _ => id) (fun _ _ => id) fun _ _ _ => trivial
  refine (hread (Effect.leads_openFile _)).bind fun sc => (hread (Effect.leads_openFile _)).bind
    fun cc => (hread (Effect.leads_decode _)).bind fun s => (hread (Effect.leads_decode _)).bind
    fun c => ?_
  dsimp only
  cases merge (Text.lines s) (Text.lines c) with
  | error e => exact fun _ _ => trivial
  | ok m =>
    refine (hread (leads_isAnnotatedFile _)).bind fun annotated => ?_
    cases m.output? (isCorePath source) annotated with
    | none => exact .pure fun v hv => ⟨hv, fun h => absurd h Bool.false_ne_true⟩
    | some ls =>
      refine .bind (Q := fun _ v => w.Leads (fun _ => True) v ∧ w.Fills output v)
        (fun v hv => Effect.ends_writeText (fun d hd => ?_) fun _ => trivial)
        fun _ => .pure fun v hv => ⟨hv.1, fun _ => hv.2⟩
      exact ⟨hv.trans (.write trivial hd), (World.Fills.write _ d).since hv⟩

/-- A copy is written at the path, unless there is a directory. -/
theorem ends_copy (w : World) :
    Ends (Effect.copy source output) w (fun _ => w.Fills output) fun _ _ => True := by
  have hrights {target : String} : Brings (w.Fills output) (fun _ => w.Fills output)
      (fun _ _ => True) (Effect.modifyDisk fun d => d.copyRights source target) :=
    ((Effect.leads_copyRights (P := fun _ => True) _ _).brings fun hw hl => hw.leads hl).mono
      (fun _ => id) (fun _ _ => id) fun _ _ _ => trivial
  show Ends (Effect.copyOnto source (w.disk.copyTarget source output) >>= fun _ =>
    Effect.modifyDisk fun d => d.copyRights source (w.disk.copyTarget source output)) w _ _
  refine ends_bind.2 (Ends.mono (Q := fun _ => w.Fills output) ?_ (fun _ v hv => hrights v hv)
    fun _ _ => id)
  unfold Disk.copyTarget
  cases hdir : w.disk.hasDirectory output with
  | false => exact Effect.ends_copyOnto (fun d c _ _ => .write c d) fun _ => trivial
  | true =>
    have hfills : w.Fills output w := .inr (Disk.exists_of_hasDirectory hdir)
    exact (Effect.leads_copyOnto (P := fun _ => True) (fun _ => trivial) w).mono
      (fun _ _ hl => hfills.leads hl) fun _ _ _ => trivial

/-- Annotating writes the output, unless there is a directory at its path. -/
theorem ends_annotate (w : World) :
    Ends (annotate source contracts output) w (fun _ => w.Fills output) fun _ _ => True := by
  have happend : Brings (w.Fills output) (fun _ => w.Fills output) (fun _ _ => True)
      (appendInvariants source contracts output) :=
    ((leads_appendInvariants (P := fun _ => True) fun _ => trivial).brings fun hw hl =>
      hw.leads hl).mono (fun _ => id) (fun _ _ => id) fun _ _ _ => trivial
  refine Brings.bind (brings_insertContracts w) (fun attributes => ?_) w (.refl w)
  refine .get_bind fun v₀ _ => .ite (fun _ => ?_) fun hcond => ?_
  · exact .bind (fun v hv => (ends_copy v).mono (fun _ _ h => h.since hv.1) fun _ _ _ => trivial)
      fun _ => happend
  · have hattributes : attributes = true := by
      simp only [Bool.or_eq_true, Bool.not_eq_true', not_or, Bool.not_eq_false] at hcond
      exact hcond.1
    exact happend.mono (fun v hv => hv.2 hattributes) (fun _ _ => id) fun _ _ => id

end Merge

/-! ## The work on a file -/

section Work

variable {st : Settings} {file : String} {w₀ : World} {e : Event}

theorem isEarly_of_said {I : Conversation → Prop} (h : Said I e) : e.IsEarly st file := by
  cases h with
  | request _ => exact isEarly_of_not_write fun _ => rfl
  | wait _ => exact isEarly_of_not_write fun _ => rfl
  | close => exact isEarly_of_not_write fun _ => rfl

theorem isEarly_of_draftPath {ending : String}
    (hmem : st.draftPath (st.nameOf file) ending ∈ st.drafts file) (hne : ending ≠ "_annotated.rs")
    (c : Content) : (Event.write (st.draftPath (st.nameOf file) ending) c).IsEarly st file := by
  intro path c' h
  obtain ⟨rfl, -⟩ := Event.write.inj h
  exact ⟨hmem, fun h => hne (Settings.draftPath_inj.1 h)⟩

theorem isDraft_of_mem {path : String} (hmem : path ∈ st.drafts file) (c : Content) :
    (Event.write path c).IsDraft st file := by
  intro other c' h
  obtain ⟨rfl, -⟩ := Event.write.inj h
  exact hmem

theorem isEarly_of_prepares (h : Prepares st file e) : e.IsEarly st file := by
  cases h with
  | takes h =>
    cases h with
    | fetch => exact isEarly_of_not_write fun _ => rfl
    | take text => exact isEarly_of_not_write fun _ => rfl
  | drafts h =>
    cases h with
    | said h => exact isEarly_of_said h
    | copy c => exact isEarly_of_draftPath (by simp [Settings.drafts]) (by decide) c
  | grading output => exact isEarly_of_not_write fun _ => rfl

theorem isDraft_of_savesHarnesses (h : Worker.SavesHarnesses st (st.nameOf file) e) :
    e.IsDraft st file := by
  cases h with
  | harnesses c => exact isDraft_of_mem (by simp [Settings.drafts]) c
  | format => exact (isEarly_of_not_write fun _ => rfl).isDraft
  | annotated c => exact isDraft_of_mem (by simp [Settings.drafts]) c

/-- Before anything is saved, the annotated file is as it was. -/
def early (st : Settings) (file : String) (w₀ : World) : Ledger st file where
  holds Ψ w := w₀.Leads (Event.IsEarly st file) w ∧ w₀.Since (fun es => Ψ (grades es)) w
  mono h hΨ := ⟨h.1, h.2.mono fun _ => hΨ _⟩
  leads h hl := ⟨h.1.trans (hl.mono fun _ => isEarly_of_prepares), h.2.leads hl fun es _ hes he =>
    ⟨(grades_concat_of_none he.grade? es).symm ▸ hes, trivial⟩⟩
  graded _ _ _ h := ⟨h.1.trans (.record (isEarly_of_not_write fun _ => rfl) fun _ => rfl),
    h.2.noting fun es hes => ⟨⟨grades es, hes, grades_concat es _⟩, trivial⟩⟩

/-- Once contracts were saved, the annotated file is one of this run. -/
def fresh (st : Settings) (file : String) (w₀ : World) : Ledger st file where
  holds _ w := w₀.Leads (Event.IsDraft st file) w ∧ w₀.Fills (st.annotatedPath file) w
  mono h _ := h
  leads h hl := ⟨h.1.trans (hl.mono fun _ he => (isEarly_of_prepares he).isDraft), h.2.leads hl⟩
  graded text g w h :=
    have hl : w.Leads (Event.IsDraft st file) (w.noting (.graded text g)) :=
      .record (isEarly_of_not_write fun _ => rfl).isDraft fun _ => rfl
    ⟨h.1.trans hl, h.2.leads hl⟩

/-- The last contracts were empty, with a good grade. -/
def EmptyGraded (gs : List (String × Int)) : Prop := ∃ g, 4 ≤ g ∧ gs.getLast? = some ("", g)

/-- How the crew is left after contracts with a good grade were saved. -/
def Saved (st : Settings) (file : String) (w₀ : World) (s : Scene Crew) : Prop :=
  (fresh st file w₀).On (fun _ => True) (fun _ => True) s ∨
    (early st file w₀).On (·.contracts = some "") EmptyGraded s

/-- Up to now nothing but drafts was written. -/
abbrev Drafting (st : Settings) (file : String) (w₀ w : World) : Prop :=
  w₀.Leads (Event.IsDraft st file) w

theorem early_drafting {Ψ : List (String × Int) → Prop} {w : World}
    (h : (early st file w₀).holds Ψ w) : Drafting st file w₀ w :=
  h.1.mono fun _ => Event.IsEarly.isDraft

theorem Worker.brings_saveContracts {text : String} (htext : text ≠ "") :
    Brings (Act.At st (fun w : Worker => w.Named (st.nameOf file) ∧ w.contracts = some text)
        (w₀.Leads (Event.IsEarly st file)))
      (fun _ => Act.At st (Named (st.nameOf file))
        fun w => Drafting st file w₀ w ∧ w₀.Fills (st.annotatedPath file) w)
      (fun _ s => Drafting st file w₀ s.world) saveContracts := by
  have hstep {e : Effect Unit} (he : e.Leads (Event.IsEarly st file)) :
      Brings (Act.At st (Named (st.nameOf file)) (w₀.Leads (Event.IsEarly st file)))
        (fun _ => Act.At st (Named (st.nameOf file)) (w₀.Leads (Event.IsEarly st file)))
        (fun _ s => Drafting st file w₀ s.world) (Act.lift e) :=
    ((Act.leads_lift he (fun _ _ => id) fun _ => id).brings fun hw hl => hw.trans hl).mono
      (fun _ => id) (fun _ _ => id) fun _ _ ht => ht.world.mono fun _ => Event.IsEarly.isDraft
  have hpath (ending : String) (s : Scene Worker)
      (hs : Act.At st (Named (st.nameOf file)) (w₀.Leads (Event.IsEarly st file)) s) :
      Worker.draftPath ending s = .ok (st.draftPath (st.nameOf file) ending) s := by
    have happly := draftPath_apply hs.focus ending
    rwa [hs.settings] at happly
  refine .value_bind (fun s hs => need_apply hs.focus.2) (.ite (fun _ => ?_) fun h => ?_)
  · refine .bind (Q := fun _ => Act.At st (Named (st.nameOf file))
      (w₀.Leads (Event.IsEarly st file))) (fun s hs => ⟨hs.settings, hs.focus.1, hs.world⟩)
      fun _ => .value_bind (hpath _) (.value_bind (hpath _) (.value_bind (hpath _) ?_))
    refine (hstep (Effect.leads_remark _)).bind fun _ => (hstep (Effect.leads_writeText
      (isEarly_of_draftPath (by simp [Settings.drafts]) (by decide) _))).bind fun _ =>
      (hstep (Effect.leads_remark _)).bind fun _ s hs => Act.ends_lift.2 ?_
    have hannotate : (Merge.annotate (st.draftPath (st.nameOf file) ".rs")
        (st.draftPath (st.nameOf file) "_contracts.rs") (st.annotatedPath file)).Leads
        (Event.IsDraft st file) :=
      Merge.leads_annotate (isDraft_of_mem (by simp [Settings.drafts]))
        (isDraft_of_mem (by simp [Settings.drafts]))
    have hdrafting : Drafting st file w₀ s.world := hs.world.mono fun _ => Event.IsEarly.isDraft
    exact ((hannotate s.world).and (Merge.ends_annotate s.world)).mono
      (fun _ w hw => ⟨hw.1.settings.trans hs.settings, hs.focus, hdrafting.trans hw.1,
        hw.2.since hdrafting⟩) fun _ w hw => hdrafting.trans hw.1
  · simp [htext] at h

theorem Worker.saveContracts_apply {s : Scene Worker} (h : s.focus.contracts = some "") :
    saveContracts s = .ok () s := by
  show EStateM.bind (need (·.contracts)) _ s = _
  rw [EStateM.bind, need_apply h]
  rfl

/-- Contracts with a good grade are saved, unless they are empty. -/
theorem brings_saveContracts_saved {grade : Int} (hgrade : 4 ≤ grade) :
    Brings ((early st file w₀).Drafted grade) (fun _ => Saved st file w₀)
      (fun _ s => Drafting st file w₀ s.world) (byWorker Worker.saveContracts) := by
  rintro s ⟨text, hs⟩
  by_cases htext : text = ""
  · subst htext
    have hsave := Worker.saveContracts_apply (s := ⟨s.focus.worker, s.world⟩) hs.focus.2
    rw [byWorker, Act.ends_zoom, Ends, hsave]
    refine .inr ⟨hs.settings, hs.focus, (early st file w₀).mono hs.world ?_⟩
    rintro gs ⟨gs', -, rfl⟩
    exact ⟨grade, hgrade, List.getLast?_concat⟩
  · have hworker : Act.At st (fun w : Worker => w.Named (st.nameOf file) ∧ w.contracts = some text)
        (w₀.Leads (Event.IsEarly st file)) ⟨s.focus.worker, s.world⟩ :=
      ⟨hs.settings, hs.focus, hs.world.1⟩
    exact Act.ends_zoom.2 ((Worker.brings_saveContracts htext _ hworker).mono
      (fun _ t ht => .inl ⟨ht.settings, ⟨ht.focus, trivial⟩, ht.world⟩) fun _ _ ht => ht)

/-! ## Harnesses -/

theorem Worker.hasNoContracts_apply {s : Scene Worker} (h : s.focus.contracts = some "") :
    hasNoContracts s = .ok true s := by
  show (if s.focus.file == "" then pure true
    else do return (← need (·.contracts)) == "" : Act Worker Bool) s = _
  cases s.focus.file == "" with
  | true => rfl
  | false =>
    show EStateM.bind (need (·.contracts)) _ s = _
    rw [EStateM.bind, need_apply h]
    rfl

/-- Without contracts there are no harnesses. -/
theorem Worker.leads_draftHarnesses_empty {P : Event → Prop} {name : String} :
    draftHarnesses.Leads st P (fun w => w.Named name ∧ w.contracts = some "")
      (fun v w => v = "" ∧ w.Named name ∧ w.contracts = some "") fun _ => True := by
  refine .focus_bind fun w _ => .value_bind (fun s _ hs => hasNoContracts_apply hs.2)
    (.ite (fun _ => ?_) fun h => absurd rfl h)
  refine .bind (K := fun _ w => w.Named name ∧ w.contracts = some "")
    (Act.leads_modifyFocus fun _ h => h) fun _ => ?_
  refine .bind (Act.leads_lift (K := fun _ w => w.Named name ∧ w.contracts = some "")
    (Effect.leads_remark _) (fun _ _ => id) fun _ _ => trivial) fun _ => ?_
  exact .pure fun _ h => ⟨rfl, h⟩

theorem brings_addHarnesses_empty :
    Brings ((early st file w₀).On (·.contracts = some "") EmptyGraded)
      (fun _ => (early st file w₀).On (·.contracts = some "") EmptyGraded)
      (fun _ => (early st file w₀).Open) (Workflow.addHarnesses file) := by
  have hdraft : (byWorker Worker.draftHarnesses).Leads st (fun _ => False)
      (Has (st.nameOf file) (·.contracts = some ""))
      (fun v crew => v = "" ∧ Has (st.nameOf file) (·.contracts = some "") crew) fun _ => True :=
    Act.leads_zoom Worker.leads_draftHarnesses_empty (fun _ h => h) (fun _ _ _ _ h => h)
      fun _ _ _ _ => trivial
  refine ((early st file w₀).brings_step (fun _ => False.elim) hdraft).bind fun harnesses => ?_
  rintro s ⟨hst, ⟨rfl, hs⟩, hw⟩
  exact Brings.ite (fun _ => (early st file w₀).brings_quiet (Effect.leads_log _))
    (fun h => absurd rfl h) s ⟨hst, hs, hw⟩

theorem brings_addHarnesses_saved :
    Brings (Saved st file w₀) (fun _ => Saved st file w₀)
      (fun _ s => Drafting st file w₀ s.world) (Workflow.addHarnesses file) := by
  rintro s (hs | hs)
  · have hkeep {w w' : World} (hw : (fresh st file w₀).holds (fun _ => True) w)
        (hl : w.Leads (Worker.SavesHarnesses st (st.nameOf file)) w') :
        (fresh st file w₀).holds (fun _ => True) w' :=
      ⟨hw.1.trans (hl.mono fun _ => isDraft_of_savesHarnesses), hw.2.leads hl⟩
    have hsave (text : String) : (byWorker Worker.saveHarnesses).Leads st
        (Worker.SavesHarnesses st (st.nameOf file)) (Has (st.nameOf file) (·.harnesses = some text))
        (fun _ => Has (st.nameOf file) fun _ => True) fun _ => True :=
      leads_ofStill fun _ hw => (Worker.leads_saveHarnesses (H := fun _ => True) hw).post
        fun _ _ h => ⟨h, trivial⟩
    refine ((fresh st file w₀).brings_addHarnesses (Ψ := fun _ => True) (fun _ _ => id)
      (fun text => ?_) s hs).mono (fun _ _ => .inl) fun _ _ ht => ht.1
    exact ((hsave text).brings hkeep).mono (fun _ => id) (fun _ _ => id) fun _ _ ht => ht.world
  · exact (brings_addHarnesses_empty s hs).mono (fun _ _ => .inr) fun _ _ => early_drafting

/-! ## Replacing the source -/

/-- Where content comes from that takes the place of the source: it was written last at the path of
the annotated file, or nothing was written there, for the last contracts were empty, and it was
there before. -/
def Origin (st : Settings) (file : String) (w₀ : World) (c : Content) (es : List Event) : Prop :=
  lastWrite (st.annotatedPath file) es = some c ∨
    (lastWrite (st.annotatedPath file) es = none ∧ EmptyGraded (grades es) ∧
      w₀.disk.node? (Location.ofPath (st.annotatedPath file)) = some (.file c))

theorem Origin.concat {c : Content} {es : List Event} (h : Origin st file w₀ c es)
    (hw : e.written? (st.annotatedPath file) = none) (hg : e.grade? = none) :
    Origin st file w₀ c (es ++ [e]) := by
  have hlast : lastWrite (st.annotatedPath file) (es ++ [e]) =
      lastWrite (st.annotatedPath file) es :=
    lastWrite_append_of_none fun e' hm => List.mem_singleton.1 hm ▸ hw
  unfold Origin
  rw [hlast, grades_concat_of_none hg]
  exact h

/-- What is read at the path of the annotated file, once contracts were saved. -/
theorem origin_of_fresh {w : World} {c : Content}
    (h : (fresh st file w₀).holds (fun _ => True) w)
    (hr : w.disk.read (st.annotatedPath file) = .ok c) : w₀.Since (Origin st file w₀ c) w := by
  rcases h.2 with ⟨es, hes, ⟨c', hc'⟩, -⟩ | ⟨l, hl, hn⟩
  · obtain ⟨es', hes', hall, hd⟩ := h.1.events
    obtain rfl : es = es' := List.append_cancel_left (hes.symm.trans hes')
    refine ⟨es, hes, .inl ?_, fun _ _ _ _ => trivial⟩
    have hapart : ∀ other c, .write other c ∈ es →
        other = st.annotatedPath file ∨ w.disk.Apart (st.annotatedPath file) other := by
      intro other c₁ hm
      by_cases hother : other = st.annotatedPath file
      · exact .inl hother
      · exact .inr (Disk.apart_of_ofPath_ne
          (ofPath_annotated_ne (hall _ hm other c₁ rfl) hother) _)
    have hlog : ∀ l, w.disk.locate (st.annotatedPath file) = .ok l → w₀.logFile? ≠ some l :=
      h.1.logFile? ▸ w.offLog_append _ (by decide) (by decide)
    cases hlast : lastWrite (st.annotatedPath file) es with
    | none => simpa [Event.written?] using lastWrite_eq_none_iff.1 hlast _ hc'
    | some c₁ => rw [Except.ok.inj (hr.symm.trans (hd.read_lastWrite hapart hlog hlast))]
  · obtain ⟨l', hl', hn', -⟩ := Disk.read_eq_ok_iff.1 hr
    obtain rfl := Except.ok.inj (hl.symm.trans hl')
    rw [hn] at hn'
    cases hn'

/-- What is read there when nothing was saved. -/
theorem origin_of_early {w : World} {c : Content} (h : (early st file w₀).holds EmptyGraded w)
    (hr : w.disk.read (st.annotatedPath file) = .ok c) : w₀.Since (Origin st file w₀ c) w := by
  obtain ⟨es, hes, hgraded, -⟩ := h.2
  obtain ⟨es', hes', hall, hd⟩ := h.1.events
  obtain rfl : es = es' := List.append_cancel_left (hes.symm.trans hes')
  obtain ⟨l, hl, hn, -⟩ := Disk.read_eq_ok_iff.1 hr
  have hnone : lastWrite (st.annotatedPath file) es = none :=
    lastWrite_eq_none_iff.2 fun e hm => (hall e hm).written?
  have hlog : w₀.logFile? ≠ some l :=
    h.1.logFile? ▸ w.offLog_append _ (by decide) (by decide) l hl
  have hbefore : w₀.disk.node? l = some (.file c) := by
    refine (hd.file_iff (fun path c' hm hloc => ?_) hlog).1 hn
    obtain ⟨hmem, hne⟩ := hall _ hm path c' rfl
    exact Disk.apart_of_ofPath_ne (ofPath_annotated_ne hmem hne) _ l hl hloc
  rw [Disk.locate_eq_ofPath hl] at hbefore
  exact ⟨es, hes, .inr ⟨hnone, hgraded, hbefore⟩, fun _ _ _ _ => trivial⟩

/-- The source was replaced. -/
structure Replaced (st : Settings) (file : String) (w₀ w : World) : Prop where
  onDisk : Workflow.isOnWeb file = false
  wanted : st.replaceSource = true
  follows : w₀.Follows (fun _ => True) w
  content : ∃ c, w.disk.read file = .ok c ∧ w₀.Since (Origin st file w₀ c) w

/-- The source was replaced, and checked out again as it did not compile. -/
def Reverted (st : Settings) (file : String) (w₀ w : World) : Prop :=
  ∃ v, Replaced st file w₀ v ∧ st.checkCompile = true ∧ w = v.checkedOut st.sourceDir file

/-- How the work on a file can end. -/
abbrev Outcome (st : Settings) (file : String) (w₀ w : World) : Prop :=
  Drafting st file w₀ w ∨ Replaced st file w₀ w ∨ Reverted st file w₀ w

theorem isEarly_of_checks (h : Arbiter.Checks (fun _ => True) e) : e.IsEarly st file := by
  cases h with
  | said h => exact isEarly_of_said h
  | run command directory => exact isEarly_of_not_write fun _ => rfl

/-- A place that is not that of the log stays so. -/
theorem World.Follows.offLog {P : Event → Prop} {w : World} (h : w₀.Follows P w)
    (hlog : w₀.logFile? ≠ some (Location.ofPath file)) : w.OffLog file := by
  intro l hl
  rw [Disk.locate_eq_ofPath hl, World.logFile?, h.log]
  exact hlog

/-- The check of the code leaves the source as it is. -/
theorem Replaced.checks {w w' : World} (hlog : w₀.logFile? ≠ some (Location.ofPath file))
    (h : Replaced st file w₀ w) (hl : w.Leads (Arbiter.Checks fun _ => True) w') :
    Replaced st file w₀ w' := by
  have hno : ∀ path c, ¬ Arbiter.Checks (fun _ => True) (.write path c) := by
    rintro path c (h | _)
    cases h
  have hgrade : ∀ e, Arbiter.Checks (fun _ => True) e → e.grade? = none := by
    rintro e (h | _)
    · exact h.grade?
    · rfl
  obtain ⟨honDisk, hwanted, hfollows, c, hr, hsince⟩ := h
  refine ⟨honDisk, hwanted, hfollows.trans (hl.mono fun _ _ => trivial).follows, c,
    hl.read hno (hfollows.offLog hlog) hr, hsince.leads hl fun es e hes he => ?_⟩
  exact ⟨hes.concat (isEarly_of_checks he).written? (hgrade e he), trivial⟩

variable (hapart : ∀ path ∈ st.drafts file, Location.ofPath path ≠ Location.ofPath file)

include hapart

/-- The source gets what is read at the path of the annotated file. -/
theorem ends_copyOnto_source (hweb : Workflow.isOnWeb file = false)
    (hwant : st.replaceSource = true) {w : World}
    (hw : (fresh st file w₀).holds (fun _ => True) w ∨ (early st file w₀).holds EmptyGraded w) :
    Ends (Effect.copyOnto (st.annotatedPath file) file) w (fun _ => Replaced st file w₀)
      fun _ => Drafting st file w₀ := by
  have hdrafting : Drafting st file w₀ w := hw.elim (fun h => h.1) early_drafting
  refine Effect.ends_copyOnto (fun d c hr hd => ?_) fun _ => hdrafting
  refine ⟨hweb, hwant, ((hdrafting.mono fun _ _ => trivial).trans (.write trivial hd)).follows, c,
    Disk.read_write_self hd, ?_⟩
  have hsince : w₀.Since (Origin st file w₀ c) w :=
    hw.elim (fun h => origin_of_fresh h (Disk.read_of_load hr)) fun h =>
      origin_of_early h (Disk.read_of_load hr)
  have hne : file ≠ st.annotatedPath file := by
    intro h
    exact hapart (st.annotatedPath file) (by simp [Settings.drafts])
      (congrArg Location.ofPath h.symm)
  exact World.Tells.noting hsince fun es hes => ⟨hes.concat (if_neg hne) rfl, trivial⟩

theorem brings_processFile_replaced (hlog : w₀.logFile? ≠ some (Location.ofPath file)) :
    Brings (Act.At st (fun _ => True) ((early st file w₀).holds (· = [])))
      (fun _ s => Outcome st file w₀ s.world) (fun _ s => Outcome st file w₀ s.world)
      (Workflow.processFile file) := by
  have hthere : (Act.lift (Workflow.isAvailable file)).Leads st (Worker.TakesOn file)
      (fun _ : Crew => True) (fun _ _ => True) fun _ => True :=
    Act.leads_lift (Workflow.leads_isAvailable .fetch) (fun _ _ => id) fun _ => id
  have hreplace : Brings (Saved st file w₀) (fun _ s => Outcome st file w₀ s.world)
      (fun _ s => Outcome st file w₀ s.world) (Workflow.replaceSource file) := by
    refine (brings_replaceSource_reverts (T := fun w => (fresh st file w₀).holds (fun _ => True) w ∨
      (early st file w₀).holds EmptyGraded w) (A := fun _ => True) (fun h hl => ?_)
      (fun w hw hweb hwant => (ends_copyOnto_source hapart hweb hwant hw).mono (fun _ _ => id)
        fun _ _ => .inl) (Replaced.checks hlog) (fun w hw hc => .inr (.inr ⟨w, hw, hc, rfl⟩))
      (fun h => .inr (.inl h)) fun h => .inl (h.elim (fun h => h.1) early_drafting)).mono ?_
      (fun _ _ => id) fun _ _ => id
    · have hl' : World.Leads (Prepares st file) _ _ := hl.mono fun _ => False.elim
      exact h.imp (fun h => (fresh st file w₀).leads h hl') fun h => (early st file w₀).leads h hl'
    · rintro s (hs | hs)
      · exact ⟨hs.settings, hs.focus, .inl hs.world⟩
      · exact ⟨hs.settings, ⟨hs.focus.1, trivial⟩, .inr hs.world⟩
  have hstop : ∀ (x : Stop) (s : Scene Crew), (early st file w₀).Open s →
      Outcome st file w₀ s.world := fun _ _ h => .inl (early_drafting h)
  refine .bind (((early st file w₀).brings_step (fun _ => .takes) hthere).mono (fun _ => id)
    (fun _ _ => id) hstop) fun _ => .ite (fun _ => ?_) fun _ => ?_
  · refine .bind ((early st file w₀).brings_draft.mono (fun _ => id) (fun _ _ => id) hstop)
      fun grade => .ite (fun _ => ?_) fun hgrade => ?_
    · rintro s ⟨text, hs⟩
      exact ((early st file w₀).brings_quiet (Effect.leads_remark _) s hs).mono
        (fun _ _ ht => .inl (early_drafting ht.world)) hstop
    · refine .bind ((brings_saveContracts_saved (Int.not_lt.1 hgrade)).mono (fun _ => id)
        (fun _ _ => id) fun _ _ => .inl) fun _ => ?_
      refine .value_bind (fun s hs => Act.settings_apply (hs.elim (·.settings) (·.settings)))
        (.ite (fun _ => ?_) fun _ => hreplace)
      exact .bind (brings_addHarnesses_saved.mono (fun _ => id) (fun _ _ => id) fun _ _ => .inl)
        fun _ => hreplace
  · exact ((early st file w₀).brings_quiet (Effect.leads_remark _)).mono (fun _ => id)
      (fun _ _ ht => .inl (early_drafting ht.world)) hstop

end Work

/-! ## The content of a file -/

/-- The content of the file to which the path leads. -/
def Disk.content? (d : Disk) (path : String) : Option Content :=
  match d.node? (Location.ofPath path) with
  | some (.file c) => some c
  | _ => none

theorem Disk.content?_eq_some_iff {d : Disk} {path : String} {c : Content} :
    d.content? path = some c ↔ d.node? (Location.ofPath path) = some (.file c) := by
  unfold Disk.content?
  cases d.node? (Location.ofPath path) with
  | none => simp
  | some n => cases n <;> simp

theorem Disk.content?_of_read {d : Disk} {path : String} {c : Content}
    (h : d.read path = .ok c) : d.content? path = some c := by
  obtain ⟨l, hl, hn, -⟩ := Disk.read_eq_ok_iff.1 h
  rw [Disk.content?_eq_some_iff, ← Disk.locate_eq_ofPath hl, hn]

/-- The content of a file, on the web or on the disk. -/
def World.content? (w : World) (file : String) : Option Content :=
  if Workflow.isOnWeb file then
    match w.web file with
    | .body c => some c
    | _ => none
  else w.disk.content? file

theorem Origin.content? {st : Settings} {file : String} {w₀ : World} {c : Content}
    {es : List Event} (h : Origin st file w₀ c es) :
    lastWrite (st.annotatedPath file) es = some c ∨
      (lastWrite (st.annotatedPath file) es = none ∧ EmptyGraded (grades es) ∧
        w₀.disk.content? (st.annotatedPath file) = some c) :=
  h.imp_right fun h => ⟨h.1, h.2.1, Disk.content?_eq_some_iff.2 h.2.2⟩

/-- A file to which no draft leads keeps its content while only drafts are written. -/
theorem content?_of_drafting {st : Settings} {file : String} {w w' : World}
    (hapart : ∀ path ∈ st.drafts file, Location.ofPath path ≠ Location.ofPath file)
    (hlog : w.logFile? ≠ some (Location.ofPath file)) (h : Drafting st file w w') :
    w'.content? file = w.content? file := by
  obtain ⟨es, -, hall, hd⟩ := h.events
  have hdisk : w'.disk.content? file = w.disk.content? file := by
    refine Option.ext fun c => ?_
    rw [Disk.content?_eq_some_iff, Disk.content?_eq_some_iff]
    refine hd.file_iff (fun path c' hm hloc => ?_) hlog
    exact hapart path (hall _ hm path c' rfl) (Disk.locate_eq_ofPath hloc).symm
  unfold World.content?
  rw [h.web, hdisk]

namespace Workflow

/-- A source is replaced only if the settings want it, and then by what was written last at the path
of the annotated file. If nothing was written there, the last contracts were empty, with a good
grade, and the source is replaced by the file that was there before. A source that does not compile
is checked out, last of all, and is then as the checkout leaves it. -/
theorem processFile_replaces {file : String} {crew crew' : Crew} {w w' : World}
    {r : Except Stop Unit} {es : List Event}
    (hrun : (processFile file).runOn crew w = (r, crew', w'))
    (hevents : w'.trace.events = w.trace.events ++ es)
    (hapart : ∀ path ∈ w.settings.drafts file, Location.ofPath path ≠ Location.ofPath file)
    (hlog : w.logFile? ≠ some (Location.ofPath file)) :
    w'.content? file = w.content? file ∨
      (isOnWeb file = false ∧ w.settings.replaceSource = true ∧ ∃ c,
        (lastWrite (w.settings.annotatedPath file) es = some c ∨
          (lastWrite (w.settings.annotatedPath file) es = none ∧
            (∃ g, 4 ≤ g ∧ (grades es).getLast? = some ("", g)) ∧
            w.disk.content? (w.settings.annotatedPath file) = some c)) ∧
        (w'.content? file = some c ∨
          (w.settings.checkCompile = true ∧
            es.getLast? =
              some (.run ["git", "-C", w.settings.sourceDir, "checkout", file] none) ∧
            ∃ d, d.content? file = some c ∧
              w'.disk = w.tools.git w.settings.sourceDir file d))) := by
  have hstart : Act.At w.settings (fun _ : Crew => True)
      ((early w.settings file w).holds (· = [])) ⟨crew, w⟩ :=
    ⟨rfl, trivial, .refl w, .start w rfl⟩
  have hend : Outcome w.settings file w w' :=
    Act.of_runOn (T := fun _ => Outcome w.settings file w)
      (brings_processFile_replaced hapart hlog _ hstart) hrun
  rcases hend with h | ⟨honDisk, hwanted, -, c, hr, es', hes', horigin, -⟩ |
    ⟨v, ⟨honDisk, hwanted, hfollows, c, hr, es', hes', horigin, -⟩, hcheck, rfl⟩
  · exact .inl (content?_of_drafting hapart hlog h)
  · obtain rfl : es' = es := List.append_cancel_left (hes'.symm.trans hevents)
    have hcontent : w'.content? file = some c := by
      rw [World.content?, honDisk]
      exact Disk.content?_of_read hr
    exact .inr ⟨honDisk, hwanted, c, horigin.content?, .inl hcontent⟩
  · have hes : es = es' ++ [.run ["git", "-C", w.settings.sourceDir, "checkout", file] none] := by
      refine List.append_cancel_left (hevents.symm.trans ?_)
      rw [← List.append_assoc, ← hes']
      rfl
    subst hes
    have hgit : (v.checkedOut w.settings.sourceDir file).disk =
        w.tools.git w.settings.sourceDir file v.disk := by
      rw [← congrArg Host.tools hfollows.host]
      rfl
    exact .inr ⟨honDisk, hwanted, c, (horigin.concat rfl rfl).content?, .inr ⟨hcheck,
      List.getLast?_concat, v.disk, Disk.content?_of_read hr, hgit⟩⟩

/-- A source that is to be replaced, and an annotated file that an earlier run left. -/
def withLeftover : World :=
  desk { Settings.default with
      sourceDir := "src/"
      wantInvariants := false
      replaceSource := true }
    [("src/a.rs", "fn f() \x7b\x7d\n"), ("target/a_annotated.rs", "stale\n")]

/-- A crew whose only draft is this one, and gets the best grade. -/
def contented (draft : String) : Crew :=
  hearing (replies ["ok", "c", "ok", draft]) (replies ["ok", "5", "fine", "fine"])

/-- The source is replaced by its annotation. -/
theorem processFile_replaces_leftover :
    ∃ r crew w' c,
      (processFile "src/a.rs").runOn (contented "_None\n#[requires(true)]\nf\n") withLeftover =
        (r, crew, w') ∧
      (∀ path ∈ withLeftover.settings.drafts "src/a.rs",
        Location.ofPath path ≠ Location.ofPath "src/a.rs") ∧
      w'.content? "src/a.rs" ≠ withLeftover.content? "src/a.rs" ∧
      w'.content? "src/a.rs" = some c ∧
      lastWrite "target/a_annotated.rs" w'.trace.events = some c := by
  have heval : (fun w : World => w.content? "src/a.rs" != withLeftover.content? "src/a.rs" &&
      (lastWrite "target/a_annotated.rs" w.trace.events).isSome)
      ((processFile "src/a.rs").runOn (contented "_None\n#[requires(true)]\nf\n")
        withLeftover).2.2 = true := by
    decide +kernel
  have hpath : withLeftover.settings.annotatedPath "src/a.rs" = "target/a_annotated.rs" := by
    decide +kernel
  have hapart : ∀ path ∈ withLeftover.settings.drafts "src/a.rs",
      Location.ofPath path ≠ Location.ofPath "src/a.rs" := by decide +kernel
  obtain ⟨⟨r, crew, w'⟩, hrun⟩ : ∃ run, (processFile "src/a.rs").runOn
    (contented "_None\n#[requires(true)]\nf\n") withLeftover = run := ⟨_, rfl⟩
  rw [hrun] at heval
  simp only [Bool.and_eq_true, bne_iff_ne] at heval
  obtain ⟨hchanged, hwritten⟩ := heval
  rcases processFile_replaces hrun rfl hapart (by decide) with
    h | ⟨-, -, c, horigin, hc | ⟨hcheck, -⟩⟩
  · exact absurd h hchanged
  · rcases horigin with h | h
    · exact ⟨r, crew, w', c, hrun, hapart, hchanged, hc, hpath ▸ h⟩
    · rw [← hpath, h.1] at hwritten
      cases hwritten
  · cases hcheck

/-- Empty contracts with the best grade: the leftover takes the place of the source. -/
theorem processFile_replaces_stale :
    ∃ r crew w',
      (processFile "src/a.rs").runOn (contented "") withLeftover = (r, crew, w') ∧
      withLeftover.content? "src/a.rs" = some (.text "fn f() \x7b\x7d\n") ∧
      w'.content? "src/a.rs" = some (.text "stale\n") ∧
      lastWrite "target/a_annotated.rs" w'.trace.events = none := by
  have heval : (fun w : World => w.content? "src/a.rs" == some (.text "stale\n") &&
      lastWrite "target/a_annotated.rs" w.trace.events == none)
      ((processFile "src/a.rs").runOn (contented "") withLeftover).2.2 = true := by
    decide +kernel
  have hbefore : withLeftover.content? "src/a.rs" = some (.text "fn f() \x7b\x7d\n") := by
    decide +kernel
  obtain ⟨⟨r, crew, w'⟩, hrun⟩ : ∃ run, (processFile "src/a.rs").runOn (contented "")
    withLeftover = run := ⟨_, rfl⟩
  rw [hrun] at heval
  simp only [Bool.and_eq_true, beq_iff_eq] at heval
  exact ⟨r, crew, w', hrun, hbefore, heval⟩

end Workflow

end Covenant
