import Covenant.Proofs.Crew.Draft

/-!
# The rounds of a draft

The worker has the contracts and the arbiter their grade. A `Ledger` says what holds of the world
when the grades so far are such and such, whatever else was done to get them. However many rounds
there are, at the end of a draft the worker has the contracts that were graded last
(`Ledger.brings_draft`).
-/

namespace Covenant

open Conversation

/-- The name of the drafts of a file. -/
abbrev Settings.nameOf (st : Settings) (file : String) : String :=
  Worker.draftNameOf st.sourceDir file

namespace Crew

/-- What is done for a draft, but for the grades. -/
inductive Prepares (st : Settings) (file : String) : Event → Prop
  | takes {e : Event} : Worker.TakesOn file e → Prepares st file e
  | drafts {e : Event} : Worker.Drafts st (st.nameOf file) e → Prepares st file e
  | grading (output : String) : Prepares st file (.grading output)

theorem Prepares.grade? {st : Settings} {file : String} {e : Event} (h : Prepares st file e) :
    e.grade? = none := by
  cases h with
  | takes h =>
    cases h with
    | fetch => rfl
    | take text => rfl
  | drafts h =>
    cases h with
    | said h => exact h.grade?
    | copy c => rfl
  | grading output => rfl

/-- The last grade is this one, and those before are in `Ψ`. -/
def Latest (Ψ : List (String × Int) → Prop) (text : String) (g : Int) (gs : List (String × Int)) :
    Prop :=
  ∃ gs', Ψ gs' ∧ gs = gs' ++ [(text, g)]

/-- What holds of the world when the grades so far are in `Ψ`. -/
structure Ledger (st : Settings) (file : String) where
  holds : (List (String × Int) → Prop) → World → Prop
  mono : ∀ {Ψ Ψ' : List (String × Int) → Prop} {w}, holds Ψ w → (∀ gs, Ψ gs → Ψ' gs) → holds Ψ' w
  leads : ∀ {Ψ w w'}, holds Ψ w → w.Leads (Prepares st file) w' → holds Ψ w'
  graded : ∀ {Ψ} text g w, holds Ψ w → holds (Latest Ψ text g) (w.noting (.graded text g))

namespace Ledger

variable {st : Settings} {file : String} (L : Ledger st file) {Ψ : List (String × Int) → Prop}
  {α : Type} {A : Worker → Prop}

/-- The crew works on the file, with the worker in `A` and grades in `Ψ`. -/
abbrev On (A : Worker → Prop) (Ψ : List (String × Int) → Prop) : Scene Crew → Prop :=
  Act.At st (Has (st.nameOf file) A) (L.holds Ψ)

/-- Whatever the grades are. -/
abbrev Open (s : Scene Crew) : Prop := L.holds (fun _ => True) s.world

/-- A step between two grades. -/
theorem brings_step {act : Act Crew α} {P : Event → Prop} {J D : Crew → Prop}
    {K : α → Crew → Prop} (hP : ∀ e, P e → Prepares st file e) (h : act.Leads st P J K D) :
    Brings (Act.At st J (L.holds Ψ)) (fun v => Act.At st (K v) (L.holds Ψ)) (fun _ => L.Open) act :=
  (h.brings fun hw hl => L.leads hw (hl.mono hP)).mono (fun _ => id) (fun _ _ => id)
    fun _ _ ht => L.mono ht.world fun _ _ => trivial

theorem brings_said {act : Act Crew α} {J D : Crew → Prop} {K : α → Crew → Prop}
    (h : act.Leads st (Said fun _ => True) J K D) :
    Brings (Act.At st J (L.holds Ψ)) (fun v => Act.At st (K v) (L.holds Ψ)) (fun _ => L.Open) act :=
  L.brings_step (fun _ he => .drafts (.said he)) h

theorem brings_quiet {e : Effect α} {J : Crew → Prop} (h : e.Leads fun _ => False) :
    Brings (Act.At st J (L.holds Ψ)) (fun _ => Act.At st J (L.holds Ψ)) (fun _ => L.Open)
      (Act.lift e) :=
  L.brings_step (fun _ => False.elim)
    (Act.leads_lift (D := fun _ => True) h (fun _ _ => id) fun _ _ => trivial)

theorem brings_advise :
    Brings (L.On A Ψ) (fun _ => L.On A Ψ) (fun _ => L.Open) (byArbiter Arbiter.advise) :=
  L.brings_said (leads_byArbiter (Arbiter.leads_advise stable_true))

theorem brings_logReasons :
    Brings (L.On A Ψ) (fun _ => L.On A Ψ) (fun _ => L.Open) (byArbiter Arbiter.logReasons) :=
  L.brings_said (leads_byArbiter (Arbiter.leads_logReasons stable_true))

/-! ## Grades -/

theorem asks {text : String} {w w' : World} (hw : L.holds Ψ w)
    (hl : w.Leads (Arbiter.Asks (fun _ => True) text) w') : L.holds Ψ w' := by
  refine L.leads hw (hl.mono ?_)
  rintro e (he | _)
  · exact .drafts (.said he)
  · exact .grading _

/-- An assessment of the text. -/
theorem brings_graded {act : Act Arbiter Int} {text : String} {E : Stop → Scene Arbiter → Prop}
    (h : Brings (Act.At st (fun _ => True) (L.holds Ψ))
      (fun g => Act.At st (fun _ => True) (L.holds (Latest Ψ text g))) E act)
    (hE : ∀ e t, E e t → L.holds Ψ t.world) :
    Brings (L.On A Ψ) (fun g => L.On A (Latest Ψ text g)) (fun _ => L.Open) (byArbiter act) :=
  (brings_byArbiter h hE).mono (fun _ => id) (fun _ _ => id)
    fun _ _ ht => L.mono ht fun _ _ => trivial

theorem brings_judgeContracts (path text : String) :
    Brings (L.On A Ψ) (fun g => L.On A (Latest Ψ text g)) (fun _ => L.Open)
      (byArbiter (Arbiter.judgeContracts path text)) :=
  L.brings_graded (Arbiter.brings_judgeContracts L.asks (L.graded text) path) fun _ _ ht => ht

theorem brings_judgeAgain (text : String) :
    Brings (L.On A Ψ) (fun g => L.On A (Latest Ψ text g)) (fun _ => L.Open)
      (byArbiter (Arbiter.judgeAgain text)) :=
  L.brings_graded (Arbiter.brings_judgeAgain stable_true L.asks (L.graded text))
    fun _ _ ht => ht.world

theorem brings_judgeHarnesses (text : String) :
    Brings (L.On A Ψ) (fun g => L.On A (Latest Ψ text g)) (fun _ => L.Open)
      (byArbiter (Arbiter.judgeHarnesses text)) :=
  L.brings_graded (Arbiter.brings_judgeHarnesses stable_true L.asks (L.graded text))
    fun _ _ ht => ht.world

/-! ## Rounds -/

/-- The worker has the contracts that were graded last. -/
def Drafted (g : Int) (s : Scene Crew) : Prop :=
  ∃ text, L.On (·.contracts = some text) (Latest (·.length ≤ 3) text g) s

/-- Each round replaces the contracts, and has the new ones graded. -/
theorem brings_refine (text : String) (grade : Int) (n : Nat) :
    Brings (L.On (·.contracts = some text) (Latest (·.length + n ≤ 3) text grade))
      (fun r => L.Drafted r.1) (fun _ => L.Open) (Workflow.refine grade n) := by
  induction n generalizing text grade with
  | zero => exact .pure fun s hs => ⟨text, hs⟩
  | succ n ih =>
    refine L.brings_advise.bind fun instructions => .ite (fun _ => .pure fun s hs => ?_) fun _ => ?_
    · refine ⟨text, hs.settings, hs.focus, L.mono hs.world ?_⟩
      rintro gs ⟨gs', hlength, rfl⟩
      exact ⟨gs', by omega, rfl⟩
    refine (L.brings_said (leads_reviseContracts instructions)).bind fun _ =>
      (L.brings_said leads_selfReview).bind fun contracts =>
      (L.brings_judgeAgain contracts).bind fun g => (ih contracts g).mono (fun s hs => ?_)
      (fun _ _ => id) fun _ _ => id
    refine ⟨hs.settings, hs.focus, L.mono hs.world ?_⟩
    rintro gs ⟨gs', ⟨gs'', hlength, rfl⟩, rfl⟩
    refine ⟨_, ?_, rfl⟩
    show (gs'' ++ [(text, grade)]).length + n ≤ 3
    rw [List.length_append, List.length_singleton]
    omega

/-- What follows the first grade. -/
theorem brings_rounds (contracts : String) (initial : Int) :
    Brings (L.On (·.contracts = some contracts) (Latest (· = []) contracts initial))
      (fun g => L.Drafted g) (fun _ => L.Open) (do
        Workflow.logGrade file "initial grade" initial
        byArbiter Arbiter.logReasons
        let (grade, left) ← Workflow.refine initial Workflow.maxRounds
        Workflow.logGrade file "final grade" grade
        Effect.log (file ++ ": number of refinement rounds: " ++
          toString (Workflow.maxRounds + 1 - left))
        byArbiter Arbiter.logReasons
        byWorker Worker.logCount
        return grade : Act Crew Int) := by
  refine (L.brings_quiet (Effect.leads_log _)).bind fun _ => L.brings_logReasons.bind fun _ => ?_
  refine .bind ((L.brings_refine contracts initial Workflow.maxRounds).mono (fun s hs => ?_)
    (fun _ _ => id) fun _ _ => id) fun r => ?_
  · refine ⟨hs.settings, hs.focus, L.mono hs.world ?_⟩
    rintro gs ⟨gs', rfl, rfl⟩
    exact ⟨[], by decide, rfl⟩
  · rintro s ⟨text, hs⟩
    have hcount : (byWorker Worker.logCount).Leads st (Said fun _ => True)
        (Has (st.nameOf file) (·.contracts = some text))
        (fun _ => Has (st.nameOf file) (·.contracts = some text)) fun _ => True :=
      leads_byWorker fun _ _ => Worker.leads_logCount (D := fun _ => True) fun _ _ => trivial
    refine Brings.bind (L.brings_quiet (Effect.leads_log _)) (fun _ => ?_) s hs
    exact (L.brings_quiet (Effect.leads_log _)).bind fun _ => L.brings_logReasons.bind fun _ =>
      (L.brings_said hcount).bind fun _ => .pure fun s hs => ⟨text, hs⟩

/-- At the end of a draft the worker has the contracts that were graded last, after at most three
rounds. -/
theorem brings_draft :
    Brings (Act.At st (fun _ => True) (L.holds (· = []))) (fun g => L.Drafted g) (fun _ => L.Open)
      (Workflow.draft file) := by
  refine (L.brings_step (fun _ => .takes) (leads_take file)).bind fun _ =>
    (L.brings_step (fun _ => .drafts) leads_draftContracts).bind fun _ =>
    (L.brings_said leads_selfReview).bind fun contracts => ?_
  refine .value_bind (fun s hs => hs.settings ▸ draftPath_apply hs.focus.1 ".rs") ?_
  exact (L.brings_judgeContracts _ contracts).bind fun initial => L.brings_rounds contracts initial

/-! ## Harnesses -/

section

variable (hΨ : ∀ {gs} text g, Ψ gs → Ψ (gs ++ [(text, g)]))

include hΨ

/-- Harnesses are graded once or twice. -/
theorem brings_settleHarnesses (text : String) :
    Brings (L.On (·.harnesses = some text) Ψ)
      (fun g s => ∃ text, L.On (·.harnesses = some text) (Latest Ψ text g) s) (fun _ => L.Open)
      (Workflow.settleHarnesses file text) := by
  refine (L.brings_judgeHarnesses text).bind fun initial => ?_
  refine (L.brings_quiet (Effect.leads_log _)).bind fun _ => L.brings_logReasons.bind fun _ =>
    .ite (fun _ => L.brings_advise.bind fun instructions => ?_) fun _ =>
      .pure fun s hs => ⟨text, hs⟩
  refine .ite (fun _ => .pure fun s hs => ⟨text, hs⟩) fun _ => ?_
  refine (L.brings_said (leads_reviseHarnesses instructions)).bind fun revised =>
    (L.brings_judgeAgain revised).mono (fun _ => id) (fun g s hs => ⟨revised, ?_⟩) fun _ _ => id
  refine ⟨hs.settings, hs.focus, L.mono hs.world ?_⟩
  rintro gs ⟨gs', ⟨gs'', hgs, rfl⟩, rfl⟩
  exact ⟨_, hΨ text initial hgs, rfl⟩

/-- Only harnesses that were graded last, as excellent, are saved. -/
theorem brings_addHarnesses
    (hsave : ∀ text, Brings (L.On (·.harnesses = some text) (Latest Ψ text 5))
      (fun _ => L.On (fun _ => True) fun _ => True) (fun _ => L.Open)
      (byWorker Worker.saveHarnesses)) :
    Brings (L.On A Ψ) (fun _ => L.On (fun _ => True) fun _ => True) (fun _ => L.Open)
      (Workflow.addHarnesses file) := by
  refine (L.brings_said leads_draftHarnesses).bind fun harnesses => .ite (fun _ => ?_) fun _ => ?_
  · exact (L.brings_quiet (Effect.leads_log _)).mono (fun _ => id) (fun _ s hs =>
      ⟨hs.settings, ⟨hs.focus.1, trivial⟩, L.mono hs.world fun _ _ => trivial⟩) fun _ _ => id
  · refine (L.brings_settleHarnesses hΨ harnesses).bind fun grade => ?_
    rintro s ⟨text, hs⟩
    refine Brings.bind (L.brings_quiet (Effect.leads_log _)) (fun _ => L.brings_logReasons.bind
      fun _ => ?_) s hs
    refine .ite (fun hgrade => ?_) fun _ => .pure fun s hs =>
      ⟨hs.settings, ⟨hs.focus.1, trivial⟩, L.mono hs.world fun _ _ => trivial⟩
    obtain rfl : grade = 5 := eq_of_beq hgrade
    exact hsave text

end

end Ledger

/-! ## Replacing the source -/

section

variable {st : Settings} {file : String} {A : Worker → Prop} {T T' : World → Prop}
  (hquiet : ∀ {w w'}, T w → w.Leads (fun _ => False) w' → T w')

include hquiet

/-- What holds before the source is replaced changes, from `T` to `T'`, with the copy. Then the code
is checked. -/
theorem brings_replaceSource_of {Q : Unit → Scene Crew → Prop} {E : Stop → Scene Crew → Prop}
    (hcopy : ∀ w, T w → Workflow.isOnWeb file = false → st.replaceSource = true →
      Ends (Effect.copyOnto (st.draftPath (st.nameOf file) "_annotated.rs") file) w (fun _ => T')
        fun e v => ∀ crew, E e ⟨crew, v⟩)
    (hcheck : Brings (Act.At st (Has (st.nameOf file) A) T') Q E (do
      if st.checkCompile then
        if !(← byArbiter Arbiter.compiles) then Workflow.revert file))
    (hskip : ∀ s, T s.world → Q () s) (hstop : ∀ e s, T s.world → E e s) :
    Brings (Act.At st (Has (st.nameOf file) A) T) Q E (Workflow.replaceSource file) := by
  have hprint {e : Effect Unit} (he : e.Leads fun _ => False) :
      Brings (Act.At st (Has (st.nameOf file) A) T) (fun _ => Act.At st (Has (st.nameOf file) A) T)
        E (Act.lift e) :=
    ((Act.leads_lift (D := fun _ => True) he (fun _ _ => id) fun _ _ => trivial).brings hquiet).mono
      (fun _ => id) (fun _ _ => id) fun _ _ ht => hstop _ _ ht.world
  have hreplace (hweb : Workflow.isOnWeb file = false) (hwant : st.replaceSource = true) :
      Brings (Act.At st (Has (st.nameOf file) A) T) Q E (do
          Effect.copyOnto (st.draftPath (st.nameOf file) "_annotated.rs") file
          if st.checkCompile then
            if !(← byArbiter Arbiter.compiles) then Workflow.revert file : Act Crew Unit) := by
    refine .bind (Q := fun _ => Act.At st (Has (st.nameOf file) A) T') (fun s hs => ?_)
      fun _ => hcheck
    have hleads : (Effect.copyOnto (st.draftPath (st.nameOf file) "_annotated.rs") file).Leads
        fun _ => True := Effect.leads_copyOnto fun _ => trivial
    exact Act.ends_lift.2 (((hcopy _ hs.world hweb hwant).and (hleads _)).mono
      (fun _ w hw => ⟨hw.2.settings.trans hs.settings, hs.focus, hw.1⟩) fun _ _ hw => hw.1 _)
  refine .value_bind (fun s hs => hs.settings ▸ draftPath_apply hs.focus.1 "_annotated.rs")
    (.value_bind (fun s hs => Act.settings_apply hs.settings) (.get_bind fun s _ =>
      .ite (fun hcond => ?_) fun _ => .pure fun _ hs => hskip _ hs.world))
  simp only [Bool.and_eq_true, Bool.not_eq_true'] at hcond
  refine .ite (fun _ => ?_) fun _ => hreplace hcond.1.1 hcond.1.2
  exact (hprint (Effect.leads_print _)).bind fun _ => (hprint (Effect.leads_print _)).bind fun _ =>
    (hprint (Effect.leads_say _)).bind fun _ => hreplace hcond.1.1 hcond.1.2

/-- What the copy brings about is kept by the check, and changes once more, from `T'` to `T''`, when
the source is taken back. -/
theorem brings_replaceSource_reverts {T'' : World → Prop}
    (hcopy : ∀ w, T w → Workflow.isOnWeb file = false → st.replaceSource = true →
      Ends (Effect.copyOnto (st.draftPath (st.nameOf file) "_annotated.rs") file) w (fun _ => T')
        fun _ => T'')
    (hcheck : ∀ {w w'}, T' w → w.Leads (Arbiter.Checks fun _ => True) w' → T' w')
    (hrevert : ∀ w, T' w → st.checkCompile = true → T'' (w.checkedOut st.sourceDir file))
    (hdone : ∀ {w}, T' w → T'' w) (hskip : ∀ {w}, T w → T'' w) :
    Brings (Act.At st (Has (st.nameOf file) A) T) (fun _ s => T'' s.world)
      (fun _ s => T'' s.world) (Workflow.replaceSource file) := by
  have hcompiles : Brings (Act.At st (Has (st.nameOf file) A) T')
      (fun _ => Act.At st (fun _ => True) T') (fun _ s => T'' s.world)
      (byArbiter Arbiter.compiles) :=
    ((leads_byArbiter ((Arbiter.leads_compiles stable_true).post fun _ _ _ => trivial)).brings
      hcheck).mono (fun _ => id) (fun _ _ ht => ⟨ht.settings, trivial, ht.world⟩)
      fun _ _ ht => hdone ht.world
  have hsay {e : Effect Unit} (he : e.Leads fun _ => False) :
      Brings (Act.At st (fun _ : Crew => True) T') (fun _ => Act.At st (fun _ => True) T')
        (fun _ s => T'' s.world) (Act.lift e) :=
    ((Act.leads_lift (D := fun _ => True) he (fun _ _ => id) fun _ _ => trivial).brings
      fun hw hl => hcheck hw (hl.mono fun _ => False.elim)).mono (fun _ => id) (fun _ _ => id)
      fun _ _ ht => hdone ht.world
  have hback (hc : st.checkCompile = true) : Brings (Act.At st (fun _ : Crew => True) T')
      (fun _ s => T'' s.world) (fun _ s => T'' s.world) (Act.lift (Workflow.revert file)) := by
    intro s hs
    refine Act.ends_lift.2 (ends_bind.2 ((Act.ends_lift.1 (hsay (Effect.leads_remark _) s hs)).mono
      (fun _ v hv => ends_bind.2 ((Act.ends_lift.1 (hsay (Effect.leads_log _) _ hv)).mono
      (fun _ u hu => ?_) fun _ _ => id)) fun _ _ => id))
    have hsettings : u.settings = st := hu.settings
    have hend := hrevert u hu.world hc
    rw [← hsettings] at hend
    exact hend
  exact brings_replaceSource_of hquiet
    (fun w hw hweb hwant => (hcopy w hw hweb hwant).mono (fun _ _ => id) fun _ _ hv _ => hv)
    (.ite (fun hc => hcompiles.bind fun _ =>
      .ite (fun _ => hback hc) fun _ => .pure fun _ hs => hdone hs.world)
      fun _ => .pure fun _ hs => hdone hs.world)
    (fun _ => hskip) fun _ _ => hskip

/-- What the copy brings about is kept by the check and by taking the source back. -/
theorem brings_replaceSource
    (hcopy : ∀ w, T w → Workflow.isOnWeb file = false → st.replaceSource = true →
      Ends (Effect.copyOnto (st.draftPath (st.nameOf file) "_annotated.rs") file) w (fun _ => T')
        fun _ => T')
    (hcheck : ∀ {w w'}, T' w → w.Follows (Arbiter.Checks fun _ => True) w' → T' w')
    (hskip : ∀ {w}, T w → T' w) :
    Brings (Act.At st (Has (st.nameOf file) A) T) (fun _ s => T' s.world) (fun _ s => T' s.world)
      (Workflow.replaceSource file) :=
  brings_replaceSource_reverts hquiet hcopy (fun hw hl => hcheck hw hl.follows)
    (fun w hw _ => hcheck hw (w.follows_checkedOut (.run _ _))) id hskip

end

end Crew

end Covenant
