import Covenant.Proofs.Crew.Rounds
import Covenant.Proofs.Text.Field
import Covenant.Proofs.Workflow.Showing

/-!
# What is saved was graded

The text of the contracts is with the worker and its grade with the arbiter, and both change over
the rounds. Whenever contracts are saved, they are those that were graded last, with a grade that is
good enough, and whenever harnesses are saved, they are those that were graded last, as excellent
(`processFile_saves`).
-/

namespace Covenant

open Conversation Crew Text

/-! ## Fences -/

namespace Worker

/-- What is saved of contracts: the text, or, if it begins with a fence, what stands between that
fence and the next. A fence that opens a block is looked for first, which makes a difference only
where one has more than three backticks. -/
structure IsCodeOf (text saved : String) : Prop where
  plain : startsWith "```rust\n" text.toList = false → saved = text
  fenced : ∀ rest, text.toList = "```rust\n".toList ++ rest →
    saved.toList = firstField "```" (firstField "```rust\n" rest)
  next : ∀ rest, text.toList = "```rust\n".toList ++ rest → ¬ "````rust\n".toList <:+: rest →
    saved.toList = firstField "```" rest

theorem isCodeOf_unfenced (text : String) : IsCodeOf text (unfenced text) := by
  have hfenced : ∀ rest, text.toList = "```rust\n".toList ++ rest →
      (unfenced text).toList = firstField "```" (firstField "```rust\n" rest) := by
    intro rest hrest
    have hstart : startsWith "```rust\n" text.toList = true :=
      List.isPrefixOf_iff_prefix.2 ⟨rest, hrest.symm⟩
    have hcut : cut? "```rust\n" text.toList = some ([], rest) := by
      rw [hrest]
      rfl
    rw [unfenced, if_pos hstart, fencedCode?, secondField?, hcut]
    exact String.toList_ofList
  refine ⟨fun hplain => ?_, hfenced, fun rest hrest hno => ?_⟩
  · rw [unfenced, hplain]
    rfl
  · rw [hfenced rest hrest, firstField_fence hno]

end Worker

/-! ## Histories -/

/-- What the event saves, if anything, was graded last before it, unless it replaces the file
itself. Harnesses are formatted once they are saved. -/
structure Graded (st : Settings) (file : String) (before : List Event) (e : Event) : Prop where
  contracts : ∀ c, e = .write (st.draftPath (st.nameOf file) "_contracts.rs") c →
    st.draftPath (st.nameOf file) "_contracts.rs" ≠ file → ∃ text g saved,
      (grades before).getLast? = some (text, g) ∧ 4 ≤ g ∧ (grades before).length ≤ 4 ∧
        c = .text saved ∧ Worker.IsCodeOf text saved
  harnesses : ∀ c, e = .write (st.draftPath (st.nameOf file) "_harnesses.rs") c →
    st.draftPath (st.nameOf file) "_harnesses.rs" ≠ file →
    .run ["rustfmt", st.draftPath (st.nameOf file) "_harnesses.rs"] none ∉ before → ∃ text,
      (grades before).getLast? = some (text, 5) ∧ 2 ≤ (grades before).length ∧ c = .text text

/-- The event gives no grade, and saves nothing unless it replaces the file itself. -/
structure Event.IsAside (st : Settings) (file : String) (e : Event) : Prop where
  grade : e.grade? = none
  contracts : ∀ c, st.draftPath (st.nameOf file) "_contracts.rs" ≠ file →
    e ≠ .write (st.draftPath (st.nameOf file) "_contracts.rs") c
  harnesses : ∀ c, st.draftPath (st.nameOf file) "_harnesses.rs" ≠ file →
    e ≠ .write (st.draftPath (st.nameOf file) "_harnesses.rs") c

/-- The history when all that was saved was graded, and the grades so far are in `Ψ`. -/
def Filed (st : Settings) (file : String) (past : List Event) (Ψ : List (String × Int) → Prop) :
    World → Prop :=
  World.Tells past (Graded st file) fun es => Ψ (grades es)

section History

variable {st : Settings} {file : String} {past : List Event} {Ψ Ψ' : List (String × Int) → Prop}
  {w w' : World} {e : Event} {es : List Event}

theorem Event.ne_write (h : ∀ path, e.written? path = none) (path : String) (c : Content) :
    e ≠ .write path c := by
  rintro rfl
  simpa [Event.written?] using h path

theorem isAside_of_not_write (hg : e.grade? = none) (h : ∀ path, e.written? path = none) :
    e.IsAside st file :=
  ⟨hg, fun c _ => e.ne_write h _ c, fun c _ => e.ne_write h _ c⟩

theorem Event.IsAside.graded (h : e.IsAside st file) : Graded st file es e :=
  ⟨fun c he hf => absurd he (h.contracts c hf), fun c he hf => absurd he (h.harnesses c hf)⟩

theorem Event.IsAside.grades (h : e.IsAside st file) :
    Covenant.grades (es ++ [e]) = Covenant.grades es :=
  grades_concat_of_none h.grade es

theorem Filed.mono (h : Filed st file past Ψ w) (hΨ : ∀ gs, Ψ gs → Ψ' gs) :
    Filed st file past Ψ' w :=
  World.Tells.mono h fun _ => hΨ _

theorem Filed.follows {P : Event → Prop} (hP : ∀ e, P e → e.IsAside st file)
    (hw : Filed st file past Ψ w) (hl : w.Follows P w') : Filed st file past Ψ w' := by
  refine World.Tells.follows hw hl fun es e hes he => ⟨?_, (hP e he).graded⟩
  rw [(hP e he).grades]
  exact hes

theorem Filed.leads {P : Event → Prop} (hP : ∀ e, P e → e.IsAside st file)
    (hw : Filed st file past Ψ w) (hl : w.Leads P w') : Filed st file past Ψ w' :=
  hw.follows hP hl.follows

/-- One more grade. -/
theorem Filed.graded (text : String) (g : Int) (w : World) (hw : Filed st file past Ψ w) :
    Filed st file past (Latest Ψ text g) (w.noting (.graded text g)) := by
  refine World.Tells.noting hw fun es hes => ⟨⟨grades es, hes, ?_⟩, ?_⟩
  · rw [grades_concat]
    rfl
  · have hno : ∀ path, (Event.graded text g).written? path = none := fun _ => rfl
    exact ⟨fun c h => absurd h (Event.ne_write hno _ c),
      fun c h => absurd h (Event.ne_write hno _ c)⟩

theorem isAside_of_said {I : Conversation → Prop} (h : Said I e) : e.IsAside st file := by
  cases h with
  | request _ => exact isAside_of_not_write rfl fun _ => rfl
  | wait _ => exact isAside_of_not_write rfl fun _ => rfl
  | close => exact isAside_of_not_write rfl fun _ => rfl

theorem isAside_of_draftPath {ending : String} (hc : ending ≠ "_contracts.rs")
    (hh : ending ≠ "_harnesses.rs") (c : Content) :
    (Event.write (st.draftPath (st.nameOf file) ending) c).IsAside st file := by
  refine ⟨rfl, fun c' _ h => hc ?_, fun c' _ h => hh ?_⟩
  · exact Settings.draftPath_inj.1 (Event.write.inj h).1
  · exact Settings.draftPath_inj.1 (Event.write.inj h).1

theorem isAside_of_prepares (h : Prepares st file e) : e.IsAside st file := by
  cases h with
  | takes h =>
    cases h with
    | fetch => exact isAside_of_not_write rfl fun _ => rfl
    | take text => exact isAside_of_not_write rfl fun _ => rfl
  | drafts h =>
    cases h with
    | said h => exact isAside_of_said h
    | copy c => exact isAside_of_draftPath (by decide) (by decide) c
  | grading output => exact isAside_of_not_write rfl fun _ => rfl

end History

/-- Up to the last grade of a draft nothing is saved. -/
def filing (st : Settings) (file : String) (past : List Event) : Ledger st file where
  holds := Filed st file past
  mono := Filed.mono
  leads hw hl := hw.leads (fun _ => isAside_of_prepares) hl
  graded := Filed.graded

/-! ## Filing -/

section Filing

variable {st : Settings} {file : String} {past : List Event} {A : Worker → Prop}

/-- Contracts with a good grade are saved. -/
theorem brings_saveContracts {grade : Int} (hgrade : 4 ≤ grade) :
    Brings ((filing st file past).Drafted grade)
      (fun _ => (filing st file past).On (fun _ => True) (1 ≤ ·.length))
      (fun _ => (filing st file past).Open) (byWorker Worker.saveContracts) := by
  rintro s ⟨text, hs⟩
  have hsave : (byWorker Worker.saveContracts).Leads st
      (Worker.SavesContracts st (st.nameOf file) text)
      (Has (st.nameOf file) (·.contracts = some text)) (fun _ => Has (st.nameOf file) fun _ => True)
      fun _ => True :=
    leads_byWorker fun _ hw => (Worker.leads_saveContracts (H := fun _ => True) hw text).post
      fun _ _ h => ⟨h.1, trivial⟩
  have hkeep {w w' : World} (hw : Filed st file past (Latest (·.length ≤ 3) text grade) w)
      (hl : w.Leads (Worker.SavesContracts st (st.nameOf file) text) w') :
      Filed st file past (Latest (·.length ≤ 3) text grade) w' := by
    refine World.Tells.leads hw hl fun es e hes he => ?_
    cases he with
    | contracts =>
      obtain ⟨gs, hlength, hgs⟩ := hes
      refine ⟨⟨gs, hlength, by rw [grades_concat_of_none rfl, hgs]⟩, fun c hc _ => ?_,
        fun c hc => ?_⟩
      · obtain ⟨-, rfl⟩ := Event.write.inj hc
        refine ⟨text, grade, _, ?_, hgrade, ?_, rfl, Worker.isCodeOf_unfenced text⟩
        · rw [hgs, List.getLast?_concat]
        · rw [hgs, List.length_append]
          exact Nat.succ_le_succ hlength
      · exact absurd (Settings.draftPath_inj.1 (Event.write.inj hc).1) (by decide)
    | annotated c =>
      have haside :
          (Event.write (st.draftPath (st.nameOf file) "_annotated.rs") c).IsAside st file :=
        isAside_of_draftPath (by decide) (by decide) c
      rw [haside.grades]
      exact ⟨hes, haside.graded⟩
    | within c =>
      have haside (path : String) :
          (Event.write (Path.join (st.draftPath (st.nameOf file) "_annotated.rs")
            (Path.base path)) c).IsAside st file := by
        rw [Settings.join_draftPath]
        refine isAside_of_draftPath (fun h => ?_) (fun h => ?_) c
        · have hl := congrArg String.toList h
          simp at hl
        · have hl := congrArg String.toList h
          simp at hl
      rw [(haside _).grades]
      exact ⟨hes, (haside _).graded⟩
  refine (hsave.brings hkeep s hs).mono (fun _ t ht => ?_) fun _ _ ht =>
    ht.world.mono fun _ _ => trivial
  refine ⟨ht.settings, ht.focus, (filing st file past).mono ht.world ?_⟩
  rintro gs ⟨gs', -, rfl⟩
  simp

/-- The history once the formatter was run on harnesses. -/
def Formatted (st : Settings) (file : String) (past : List Event) : World → Prop :=
  World.Tells past (Graded st file)
    (.run ["rustfmt", st.draftPath (st.nameOf file) "_harnesses.rs"] none ∈ ·)

theorem Formatted.leads {w w' : World} (h : Formatted st file past w)
    (hl : w.Leads (Worker.SavesHarnesses st (st.nameOf file)) w') : Formatted st file past w' := by
  refine World.Tells.leads h hl fun es e hes he => ⟨List.mem_append_left _ hes, ?_⟩
  cases he with
  | harnesses c =>
    refine ⟨fun c' hc => ?_, fun c' hc _ hno => absurd hes hno⟩
    exact absurd (Settings.draftPath_inj.1 (Event.write.inj hc).1) (by decide)
  | format => exact (isAside_of_not_write rfl fun _ => rfl).graded
  | annotated c => exact (isAside_of_draftPath (by decide) (by decide) c).graded

/-- The worker has the harnesses that were graded last, as excellent. -/
abbrev Excellent (st : Settings) (file : String) (past : List Event) (text : String) :
    Scene Worker → Prop :=
  Act.At st (fun w => w.Named (st.nameOf file) ∧ w.harnesses = some text)
    (Filed st file past (Latest (1 ≤ ·.length) text 5))

/-- Harnesses are written as they were graded; what the formatter makes of them comes later. -/
theorem brings_writeHarnesses (text : String) :
    Brings (Excellent st file past text) (fun _ => Excellent st file past text)
      (fun _ => Excellent st file past text)
      (Act.lift (Effect.writeText (st.draftPath (st.nameOf file) "_harnesses.rs") text)) := by
  refine (Act.leads_lift (Effect.leads_writeText (P := (· = .write (st.draftPath (st.nameOf file)
    "_harnesses.rs") (.text text))) rfl) (fun _ _ => id) fun _ => id).brings fun hw hl => ?_
  refine World.Tells.leads hw hl ?_
  rintro es e hes rfl
  refine ⟨by rwa [grades_concat_of_none rfl], fun c hc => ?_, fun c hc _ _ => ?_⟩
  · exact absurd (Settings.draftPath_inj.1 (Event.write.inj hc).1) (by decide)
  · obtain ⟨gs, hlength, hgs⟩ := hes
    obtain ⟨-, rfl⟩ := Event.write.inj hc
    refine ⟨text, ?_, ?_, rfl⟩
    · rw [hgs, List.getLast?_concat]
    · rw [hgs, List.length_append]
      exact Nat.succ_le_succ hlength

theorem Worker.brings_saveHarnesses (text : String) :
    Brings (Excellent st file past text)
      (fun _ => Act.At st (Worker.Named (st.nameOf file)) (Filed st file past fun _ => True))
      (fun _ s => Filed st file past (fun _ => True) s.world) saveHarnesses := by
  have hdone : ∀ s, Excellent st file past text s →
      Act.At st (Worker.Named (st.nameOf file)) (Filed st file past fun _ => True) s :=
    fun s hs => ⟨hs.settings, hs.focus.1, hs.world.mono fun _ _ => trivial⟩
  have hquiet {e : Effect Unit} (he : e.Leads fun _ => False) :
      Brings (Excellent st file past text) (fun _ => Excellent st file past text)
        (fun _ => Excellent st file past text) (Act.lift e) :=
    (Act.leads_lift he (fun _ _ => id) fun _ => id).brings (Filed.leads fun _ => False.elim)
  have hlater {w : World} (hw : Formatted st file past w) : Filed st file past (fun _ => True) w :=
    World.Tells.mono hw fun _ _ => trivial
  have hlifted {α : Type} {e : Effect α} (he : e.Leads (SavesHarnesses st (st.nameOf file))) :
      Brings (Act.At st (Worker.Named (st.nameOf file)) (Formatted st file past))
        (fun _ => Act.At st (Worker.Named (st.nameOf file)) (Formatted st file past))
        (fun _ s => Filed st file past (fun _ => True) s.world) (Act.lift e) :=
    ((Act.leads_lift he (fun _ _ => id) fun _ => id).brings Formatted.leads).mono (fun _ => id)
      (fun _ _ => id) fun _ _ ht => hlater ht.world
  refine .value_bind (fun s hs => need_apply hs.focus.2) (.ite (fun _ => ?_) fun _ => .pure hdone)
  refine .bind ((hquiet (Effect.leads_remark _)).mono (fun _ => id) (fun _ _ => id)
    fun _ s hs => (hdone s hs).world) fun _ => ?_
  refine .value_bind (fun s hs => hs.settings ▸ draftPath_apply hs.focus.1 "_harnesses.rs") ?_
  refine .value_bind (fun s hs => hs.settings ▸ draftPath_apply hs.focus.1 "_annotated.rs") ?_
  refine .get_bind fun s₀ _ => .ite (fun _ => ?_) fun _ s hs => ?_
  · refine .bind ((brings_writeHarnesses text).mono (fun _ => id) (fun _ _ => id)
      fun _ s hs => (hdone s hs).world) fun _ => ?_
    refine .bind (Q := fun _ => Act.At st (Worker.Named (st.nameOf file)) (Formatted st file past))
      (fun s hs => Act.ends_lift.2 ?_) fun _ => ?_
    · have hformat : Ends (Effect.format (st.draftPath (st.nameOf file) "_harnesses.rs")) s.world
          (fun _ w => w.settings = st ∧ Formatted st file past w)
          fun _ w => w.settings = st ∧ Formatted st file past w :=
        Effect.ends_format (T := fun w => w.settings = st ∧ Filed st file past (fun _ => True) w)
          (fun w hw => ⟨hw.1, World.Tells.noting hw.2 fun es _ =>
            ⟨List.mem_append_right _ List.mem_cons_self,
              (isAside_of_not_write rfl fun _ => rfl).graded⟩⟩)
          (fun hw hl => ⟨hl.settings.trans hw.1, hw.2.leads (hl.mono fun e ⟨c, he⟩ =>
            he ▸ .harnesses c)⟩) ⟨hs.settings, (hdone s hs).world⟩
      exact hformat.mono (fun _ w hw => ⟨hw.1, hs.focus.1, hw.2⟩) fun _ w hw => hlater hw.2
    · exact (hlifted (Effect.leads_openFile _)).bind fun content =>
        (hlifted (Effect.leads_appendText .annotated)).bind fun _ =>
        (hlifted (Effect.leads_decode content)).bind fun _ =>
        (hlifted (Effect.leads_appendText .annotated)).mono (fun _ => id)
          (fun _ _ ht => ⟨ht.settings, ht.focus, hlater ht.world⟩) fun _ _ => id
  · exact ⟨hs.settings, hs.focus.1, hs.world.mono fun _ _ => trivial⟩

/-- Harnesses that are excellent are saved, and then formatted. -/
theorem brings_saveHarnesses (text : String) :
    Brings ((filing st file past).On (·.harnesses = some text) (Latest (1 ≤ ·.length) text 5))
      (fun _ => (filing st file past).On (fun _ => True) fun _ => True)
      (fun _ => (filing st file past).Open) (byWorker Worker.saveHarnesses) := by
  refine Act.brings_zoom (Worker.brings_saveHarnesses text)
    (fun _ hs => ⟨hs.settings, hs.focus, hs.world⟩) (fun _ _ _ _ ht => ?_)
    fun _ _ _ _ ht => ht
  exact ⟨ht.settings, ⟨ht.focus, trivial⟩, ht.world⟩

theorem brings_processFile_saved :
    Brings (Act.At st (fun _ => True) ((filing st file past).holds (· = [])))
      (fun _ => (filing st file past).Open) (fun _ => (filing st file past).Open)
      (Workflow.processFile file) := by
  have hwrite : ∀ e : Event, (∃ c, e = .write file c) → e.IsAside st file := by
    rintro e ⟨c, rfl⟩
    exact ⟨rfl, fun c' hf h => hf (Event.write.inj h).1.symm,
      fun c' hf h => hf (Event.write.inj h).1.symm⟩
  have hchecks : ∀ e, Arbiter.Checks (fun _ => True) e → e.IsAside st file := by
    rintro e (he | ⟨command, directory⟩)
    · exact isAside_of_said he
    · exact isAside_of_not_write rfl fun _ => rfl
  have hcopy (w : World) (hw : Filed st file past (fun _ => True) w) (annotated : String) :
      Ends (Effect.copyOnto annotated file) w (fun _ => Filed st file past fun _ => True)
        fun _ => Filed st file past fun _ => True :=
    (Effect.leads_copyOnto (fun c => ⟨c, rfl⟩) w).mono (fun _ _ => hw.leads hwrite)
      fun _ _ => hw.leads hwrite
  have hreplace : Brings (Act.At st (Has (st.nameOf file) fun _ => True)
      (Filed st file past fun _ => True)) (fun _ s => Filed st file past (fun _ => True) s.world)
      (fun _ s => Filed st file past (fun _ => True) s.world) (Workflow.replaceSource file) :=
    brings_replaceSource (Filed.leads fun _ => False.elim) (fun w hw _ _ => hcopy w hw _)
      (Filed.follows hchecks) id
  have hthere : (Act.lift (Workflow.isAvailable file)).Leads st (Worker.TakesOn file)
      (fun _ : Crew => True) (fun _ _ => True) fun _ => True :=
    Act.leads_lift (Workflow.leads_isAvailable .fetch) (fun _ _ => id) fun _ => id
  refine ((filing st file past).brings_step (fun _ => .takes) hthere).bind fun _ =>
    .ite (fun _ => ?_) fun _ => ?_
  · refine (filing st file past).brings_draft.bind fun grade => .ite (fun _ => ?_) fun hgrade => ?_
    · rintro s ⟨text, hs⟩
      exact ((filing st file past).brings_quiet (Effect.leads_remark _) s hs).mono
        (fun _ _ ht => ht.world.mono fun _ _ => trivial) fun _ _ => id
    · refine (brings_saveContracts (Int.not_lt.1 hgrade)).bind fun _ => ?_
      refine .value_bind (fun _ hs => Act.settings_apply hs.settings)
        (.ite (fun _ => ?_) fun _ => ?_)
      · refine ((filing st file past).brings_addHarnesses (fun text g h => ?_)
          brings_saveHarnesses).bind fun _ => hreplace
        exact Nat.le_trans h (by simp)
      · exact hreplace.mono (fun _ hs => ⟨hs.settings, hs.focus,
          (filing st file past).mono hs.world fun _ _ => trivial⟩) (fun _ _ => id) fun _ _ => id
  · exact ((filing st file past).brings_quiet (Effect.leads_remark _)).mono (fun _ => id)
      (fun _ _ ht => (filing st file past).mono ht.world fun _ _ => trivial) fun _ _ => id

end Filing

namespace Workflow

/-- Contracts are written only as they were graded last, after at most three rounds, with a grade of
four at least; harnesses only as they were graded last, with the grade five, by a later assessment
than that of the first draft. -/
theorem processFile_saves {file path : String} {crew crew' : Crew} {w w' : World}
    {r : Except Stop Unit} {before after : List Event} {c : Content}
    (hrun : (processFile file).runOn crew w = (r, crew', w'))
    (hevents : w'.trace.events = w.trace.events ++ (before ++ .write path c :: after))
    (hfile : path ≠ file) :
    (path = w.settings.draftPath (w.settings.nameOf file) "_contracts.rs" →
      ∃ text g saved, (grades before).getLast? = some (text, g) ∧ 4 ≤ g ∧
        (grades before).length ≤ 4 ∧ c = .text saved ∧ Worker.IsCodeOf text saved) ∧
    (path = w.settings.draftPath (w.settings.nameOf file) "_harnesses.rs" →
      .run ["rustfmt", path] none ∉ before →
      ∃ text, (grades before).getLast? = some (text, 5) ∧ 2 ≤ (grades before).length ∧
        c = .text text) := by
  have hstart : Act.At w.settings (fun _ : Crew => True)
      (Filed w.settings file w.trace.events (· = [])) ⟨crew, w⟩ :=
    ⟨rfl, trivial, .start w rfl⟩
  obtain ⟨es, hes, -, halong⟩ := Act.of_runOn (T := fun _ => Filed w.settings file w.trace.events
    fun _ => True) (brings_processFile_saved _ hstart) hrun
  have heq : es = before ++ .write path c :: after :=
    List.append_cancel_left (hes.symm.trans hevents)
  have hgraded := halong before _ after heq
  refine ⟨?_, ?_⟩
  · rintro rfl
    exact hgraded.contracts c rfl hfile
  · rintro rfl
    exact hgraded.harnesses c rfl hfile

/-- Whether a command was run. -/
def runsCommand (es : List Event) : Bool :=
  es.any fun e => match e with
    | .run _ _ => true
    | _ => false

theorem run_not_mem {es : List Event} (h : runsCommand es = false) (command : List String)
    (directory : Option String) : .run command directory ∉ es := by
  intro hm
  have hno := List.any_eq_false.1 h _ hm
  simp at hno

/-- A file whose harnesses are wanted. -/
def withHarnesses : World :=
  desk { Settings.default with
      sourceDir := "src/"
      wantInvariants := false
      wantHarnesses := true }
    [("src/a.rs", "fn f() \x7b\x7d\n"), ("prompts/harnesses.txt", "h")]

/-- A crew whose first draft is not good enough; the second one is fenced. -/
def fencing : Crew :=
  hearing (replies ["ok", "c", "ok", "first", "ok", "c", "ok",
      "```rust\n_None\n#[requires(true)]\nf\n```", "ok", "```rust\nx\n```"])
    (replies ["ok", "3", "low", "improve it", "ok", "5", "fine", "ok", "ok", "5", "fine", "fine"])

/-- The second draft is saved, and then harnesses for it. -/
theorem processFile_saves_second_draft :
    ∃ r crew w' before c after before' c' after',
      (processFile "src/a.rs").runOn fencing withHarnesses = (r, crew, w') ∧
      w'.trace.events = before ++ .write "target/a_contracts.rs" c :: after ∧
      (∃ text g saved, (grades before).getLast? = some (text, g) ∧ 4 ≤ g ∧
        (grades before).length ≤ 4 ∧ c = .text saved ∧ Worker.IsCodeOf text saved) ∧
      w'.trace.events = before' ++ .write "target/a_harnesses.rs" c' :: after' ∧
      .run ["rustfmt", "target/a_harnesses.rs"] none ∉ before' ∧
      ∃ text, (grades before').getLast? = some (text, 5) ∧ 2 ≤ (grades before').length ∧
        c' = .text text := by
  have heval : (fun es => writeAt es 22 "target/a_contracts.rs" (fun _ => true) &&
      writeAt es 33 "target/a_harnesses.rs" (fun _ => true) && !runsCommand (es.take 33))
      ((processFile "src/a.rs").runOn fencing withHarnesses).2.2.trace.events = true := by
    decide +kernel
  have hc : "target/a_contracts.rs" = withHarnesses.settings.draftPath
      (withHarnesses.settings.nameOf "src/a.rs") "_contracts.rs" := by decide +kernel
  have hh : "target/a_harnesses.rs" = withHarnesses.settings.draftPath
      (withHarnesses.settings.nameOf "src/a.rs") "_harnesses.rs" := by decide +kernel
  obtain ⟨⟨r, crew, w'⟩, hrun⟩ :
      ∃ run, (processFile "src/a.rs").runOn fencing withHarnesses = run := ⟨_, rfl⟩
  rw [hrun] at heval
  simp only [Bool.and_eq_true, Bool.not_eq_true'] at heval
  obtain ⟨⟨hcontracts, hharnesses⟩, hno⟩ := heval
  obtain ⟨c, -, hes⟩ := exists_of_writeAt hcontracts
  obtain ⟨c', -, hes'⟩ := exists_of_writeAt hharnesses
  refine ⟨r, crew, w', _, c, _, _, c', _, hrun, hes, ?_, hes', run_not_mem hno _ _, ?_⟩
  · exact (processFile_saves hrun hes (by decide)).1 hc
  · exact (processFile_saves hrun hes' (by decide)).2 hh (run_not_mem hno _ _)

/-- A longer fence opens the next block, and one of its backticks is saved. -/
theorem processFile_saves_backtick :
    ∃ r crew w' before after,
      (processFile "src/a.rs").runOn (hearing
        (replies ["ok", "c", "ok", "```rust\nab````rust\n"]) (replies ["ok", "5", "fine", "fine"]))
        withHarnesses = (r, crew, w') ∧
      w'.trace.events = before ++ .write "target/a_contracts.rs" (.text "ab`") :: after ∧
      (grades before).getLast? = some ("```rust\nab````rust\n", 5) ∧
      firstField "```" "ab````rust\n".toList = "ab".toList := by
  have heval : (fun es =>
      writeAt es 13 "target/a_contracts.rs" (fun c => decide (c = .text "ab`")) &&
      (grades (es.take 13)).getLast? == some ("```rust\nab````rust\n", 5))
      ((processFile "src/a.rs").runOn (hearing
        (replies ["ok", "c", "ok", "```rust\nab````rust\n"]) (replies ["ok", "5", "fine", "fine"]))
        withHarnesses).2.2.trace.events = true := by
    decide +kernel
  obtain ⟨⟨r, crew, w'⟩, hrun⟩ : ∃ run, (processFile "src/a.rs").runOn (hearing
    (replies ["ok", "c", "ok", "```rust\nab````rust\n"]) (replies ["ok", "5", "fine", "fine"]))
    withHarnesses = run := ⟨_, rfl⟩
  rw [hrun] at heval
  simp only [Bool.and_eq_true, beq_iff_eq] at heval
  obtain ⟨c, hc, hes⟩ := exists_of_writeAt heval.1
  obtain rfl := of_decide_eq_true hc
  exact ⟨r, crew, w', _, _, hrun, hes, heval.2, by decide +kernel⟩

end Workflow

end Covenant
