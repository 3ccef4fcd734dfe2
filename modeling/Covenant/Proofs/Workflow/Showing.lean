import Covenant.Proofs.Crew.Draft

/-!
# What the arbiter is shown before it grades

The first assessment of a file marks the message that holds the contracts, so they are in every
request for their grade. A later output stands after the mark: it is in the request for its grade
unless the conversation was cut down to the marked message, and then the request has nothing but
that message, with the contracts assessed first (`processFile_shows`).
-/

namespace Covenant

open Conversation Crew

/-- The part is a text that has this one in it. -/
def Part.Quotes (text : String) : Part → Prop
  | .text s => text.toList <:+: s.toList
  | .document _ _ => False

instance (text : String) : DecidablePred (Part.Quotes text)
  | .text s => inferInstanceAs (Decidable (text.toList <:+: s.toList))
  | .document _ _ => inferInstanceAs (Decidable False)

/-- The message has the text in one of its parts. -/
def Message.Quotes (text : String) : Message → Prop
  | .user parts => ∃ p ∈ parts, p.Quotes text
  | .reply _ => False

instance (text : String) : DecidablePred (Message.Quotes text)
  | .user parts => inferInstanceAs (Decidable (∃ p ∈ parts, p.Quotes text))
  | .reply _ => inferInstanceAs (Decidable False)

/-- The output whose grade is awaited after the event, when `awaited` was before. -/
def Event.awaits (awaited : Option String) : Event → Option String
  | .grading output => some output
  | .graded _ _ => none
  | _ => awaited

/-- The output whose grade has been asked for and not been given. -/
def awaited (es : List Event) : Option String := es.foldl Event.awaits none

theorem awaited_concat (es : List Event) (e : Event) :
    awaited (es ++ [e]) = e.awaits (awaited es) := by
  rw [awaited, List.foldl_append]
  rfl

namespace Arbiter

/-- The message that asks for the first assessment. -/
def assessment (contracts : String) (document : Part) : Message :=
  .user [.text (assessRequest contracts), document]

/-- The message that asks for a grade. -/
def gradeMessage : Message := .user [.text gradeRequest]

theorem quotes_assessment (contracts : String) (document : Part) :
    (assessment contracts document).Quotes contracts := by
  refine ⟨_, List.mem_cons_self, ?_⟩
  rw [Part.Quotes, assessRequest, String.toList_append]
  exact (List.suffix_append _ _).isInfix

theorem quotes_reassess (output : String) :
    (Message.user [.text (reassessRequest output)]).Quotes output := by
  refine ⟨_, List.mem_cons_self, ?_⟩
  rw [Part.Quotes, reassessRequest, String.toList_append]
  exact (List.suffix_append _ _).isInfix

theorem quotes_harnesses (harnesses : String) :
    (Message.user [.text (harnessesRequest harnesses)]).Quotes harnesses := by
  refine ⟨_, List.mem_cons_self, ?_⟩
  rw [Part.Quotes, harnessesRequest, String.toList_append, String.toList_append]
  exact List.infix_append _ _ _

/-! ## The arbiter's conversation -/

/-- The message that asked for the first assessment is marked. -/
def Pinned (first : String) (c : Conversation) : Prop :=
  ∃ front document back, MarkedAt front (assessment first document) back c

/-- The output stands after the mark. -/
def Holds (first output : String) (c : Conversation) : Prop :=
  ∃ front document back, MarkedAt front (assessment first document) back c ∧
    ∃ m ∈ back, m.Quotes output

/-- The output was shown: it is the one assessed first, or stands after the mark, or nothing but the
marked message is left. -/
def Exposed (first output : String) (front back : List Message) : Prop :=
  output = first ∨ (∃ m ∈ back, m.Quotes output) ∨ (front = [] ∧ back = [])

/-- The output was shown, and its grade can be asked for. -/
def Shown (first output : String) (c : Conversation) : Prop :=
  ∃ front document back, MarkedAt front (assessment first document) back c ∧
    Exposed first output front back

/-- The output was shown, and its grade is asked for. -/
def Asked (first output : String) (c : Conversation) : Prop :=
  ∃ front document back, MarkedAt front (assessment first document) (back ++ [gradeMessage]) c ∧
    Exposed first output front back

section

variable {first output : String} {c : Conversation}

theorem Pinned.push (h : Pinned first c) (m : Message) : Pinned first (c.push m) := by
  obtain ⟨front, document, back, h⟩ := h
  exact ⟨front, document, back ++ [m], h.push m⟩

theorem stable_pinned (first : String) : Stable (fun _ => True) (Pinned first) where
  replies _ _ _ _ _ := trivial
  next h := by
    obtain ⟨front, document, back, h⟩ := h
    exact ⟨front, document, back, h.messages, h.mark⟩
  shorten h := by
    obtain ⟨front, document, back, h⟩ := h
    exact ⟨[], document, back, h.dropBeforeMark⟩
  system h _ := by
    obtain ⟨front, document, back, h⟩ := h
    exact ⟨front, document, back, h.messages, h.mark⟩
  tell h _ := h.push _
  hear h _ := h.push _
  keep h := by
    obtain ⟨front, document, back, h⟩ := h
    exact ⟨[], document, [], h.keepMarkedOnly⟩

theorem Pinned.holds (h : Pinned first c) {m : Message} (hm : m.Quotes output) :
    Holds first output (c.push m) := by
  obtain ⟨front, document, back, h⟩ := h
  exact ⟨front, document, back ++ [m], h.push m, m, List.mem_append_right _ List.mem_cons_self, hm⟩

theorem resumes_holds (first output : String) :
    Resumes (fun _ => True) (Holds first output) where
  replies _ _ _ _ _ := trivial
  next h := by
    obtain ⟨front, document, back, h, hm⟩ := h
    exact ⟨front, document, back, ⟨h.messages, h.mark⟩, hm⟩
  shorten h := by
    obtain ⟨front, document, back, h, hm⟩ := h
    exact ⟨[], document, back, h.dropBeforeMark, hm⟩

/-- After an exchange the output is still there, or only the marked message is. -/
theorem shown_of_answered (h : Answered (fun _ => True) (Holds first output) c) :
    Shown first output c := by
  cases h with
  | same h =>
    obtain ⟨front, document, back, h, hm⟩ := h
    exact ⟨front, document, back, h, .inr (.inl hm)⟩
  | heard h _ =>
    obtain ⟨front, document, back, h, m, hm, hq⟩ := h
    exact ⟨front, document, _, h.push _, .inr (.inl ⟨m, List.mem_append_left _ hm, hq⟩)⟩
  | cut h =>
    obtain ⟨front, document, back, h, -⟩ := h
    exact ⟨[], document, [], h.keepMarkedOnly, .inr (.inr ⟨rfl, rfl⟩)⟩

theorem Shown.asked (h : Shown first output c) : Asked first output (c.push gradeMessage) := by
  obtain ⟨front, document, back, h, he⟩ := h
  exact ⟨front, document, back, h.push _, he⟩

theorem resumes_asked (first output : String) :
    Resumes (fun _ => True) (Asked first output) where
  replies _ _ _ _ _ := trivial
  next h := by
    obtain ⟨front, document, back, h, he⟩ := h
    exact ⟨front, document, back, ⟨h.messages, h.mark⟩, he⟩
  shorten h := by
    obtain ⟨front, document, back, h, he⟩ := h
    exact ⟨[], document, back, h.dropBeforeMark, he.imp id (.imp id fun h => ⟨rfl, h.2⟩)⟩

theorem pinned_of_answered (h : Answered (fun _ => True) (Asked first output) c) :
    Pinned first c := by
  refine (stable_pinned first).answered (h.mono fun c h => ?_)
  obtain ⟨front, document, back, h, -⟩ := h
  exact ⟨front, document, _, h⟩

end

end Arbiter

open Arbiter

/-! ## The history of the grades -/

/-- A request for the grade of an output ends with the request for a grade, and the output is in a
message before it, unless that is the message alone with the contracts that were graded first. -/
def AsShown (before : List Event) (e : Event) : Prop :=
  ∀ model system messages mark output, e = .request model system messages mark →
    awaited before = some output → ∃ front, messages = front ++ [gradeMessage] ∧
      ((∃ m ∈ front, m.Quotes output) ∨ ∃ first g rest document,
        grades before = (first, g) :: rest ∧ front = [assessment first document])

/-- The output is the first to be graded, or `first` was. -/
def First (first output : String) (gs : List (String × Int)) : Prop :=
  (gs = [] ∧ output = first) ∨ ∃ g rest, gs = (first, g) :: rest

/-- The history when no grade is awaited and the grades so far are in `Ψ`. -/
def Idle (past : List Event) (Ψ : List (String × Int) → Prop) : World → Prop :=
  World.Tells past AsShown fun es => awaited es = none ∧ Ψ (grades es)

/-- The event neither asks for a grade nor gives one. -/
structure Event.IsNeutral (e : Event) : Prop where
  awaits : ∀ p, e.awaits p = p
  grade : e.grade? = none

section History

variable {st : Settings} {past : List Event} {first output : String} {es : List Event} {e : Event}

theorem Conversation.Said.isNeutral {I : Conversation → Prop} (h : Said I e) : e.IsNeutral := by
  cases h with
  | request _ => exact ⟨fun _ => rfl, rfl⟩
  | wait _ => exact ⟨fun _ => rfl, rfl⟩
  | close => exact ⟨fun _ => rfl, rfl⟩

theorem asShown_of_idle (h : awaited es = none) : AsShown es e := by
  intro _ _ _ _ output _ hout
  rw [h] at hout
  cases hout

theorem Event.IsNeutral.awaited (h : e.IsNeutral) :
    Covenant.awaited (es ++ [e]) = Covenant.awaited es := by
  rw [awaited_concat, h.awaits]

theorem Event.IsNeutral.grades (h : e.IsNeutral) :
    Covenant.grades (es ++ [e]) = Covenant.grades es :=
  grades_concat_of_none h.grade es

/-- Between two grades nothing is awaited. -/
theorem Idle.follows {P : Event → Prop} (hP : ∀ e, P e → e.IsNeutral)
    {Ψ : List (String × Int) → Prop} {w w' : World} (hw : Idle past Ψ w) (hl : w.Follows P w') :
    Idle past Ψ w' := by
  refine World.Tells.follows hw hl fun es e hes he => ⟨?_, asShown_of_idle hes.1⟩
  rw [(hP e he).awaited, (hP e he).grades]
  exact hes

theorem Idle.leads {P : Event → Prop} (hP : ∀ e, P e → e.IsNeutral)
    {Ψ : List (String × Int) → Prop} {w w' : World} (hw : Idle past Ψ w) (hl : w.Leads P w') :
    Idle past Ψ w' :=
  hw.follows hP hl.follows

/-- A request for the grade of an output that was shown. -/
theorem asShown_of_asked {c : Conversation} (hc : Asked first output c)
    (hes : awaited es = some output ∧ First first output (grades es)) : AsShown es c.request := by
  rintro model system messages mark out heq hout
  obtain ⟨-, -, rfl, -⟩ := Event.request.inj heq
  obtain rfl : output = out := Option.some.inj (hes.1.symm.trans hout)
  obtain ⟨front, document, back, hmark, hexp⟩ := hc
  refine ⟨front ++ assessment first document :: back, by rw [hmark.messages]; simp, ?_⟩
  rcases hexp with rfl | ⟨m, hm, hq⟩ | ⟨rfl, rfl⟩
  · exact .inl ⟨_, List.mem_append_right _ List.mem_cons_self, quotes_assessment _ _⟩
  · exact .inl ⟨m, List.mem_append_right _ (List.mem_cons_of_mem _ hm), hq⟩
  · rcases hes.2 with ⟨-, rfl⟩ | ⟨g, rest, hg⟩
    · exact .inl ⟨_, List.mem_cons_self, quotes_assessment _ _⟩
    · exact .inr ⟨first, g, rest, document, hg, rfl⟩

theorem First.graded (h : First first output (grades es)) (g : Int) :
    ∃ g' rest, grades (es ++ [.graded output g]) = (first, g') :: rest := by
  rw [grades_concat]
  rcases h with ⟨hnil, rfl⟩ | ⟨g', rest, hcons⟩
  · exact ⟨g, [], by rw [hnil]; rfl⟩
  · exact ⟨g', rest ++ [(output, g)], by rw [hcons]; rfl⟩

end History

/-! ## Assessments -/

section Assessments

variable {st : Settings} {past : List Event} {first output : String}

/-- The history when `first` was graded and no grade is awaited. -/
abbrev Between (past : List Event) (first : String) : World → Prop :=
  Idle past fun gs => ∃ g rest, gs = (first, g) :: rest

/-- How the arbiter is left when an assessment is stopped. -/
abbrev Broken (st : Settings) (past : List Event) (first : String) : Stop → Scene Arbiter → Prop :=
  fun _ => Act.At st (Arbiter.Halted (fun _ => True) (Pinned first))
    (World.Tells past AsShown fun _ => True)

theorem Arbiter.gradeRequest_ne : gradeRequest ≠ "" := by decide +kernel

theorem Arbiter.reassessRequest_ne (output : String) : reassessRequest output ≠ "" := by
  intro h
  have hl := congrArg String.toList h
  simp [reassessRequest] at hl

theorem Arbiter.harnessesRequest_ne (harnesses : String) : harnessesRequest harnesses ≠ "" := by
  intro h
  have hl := congrArg String.toList h
  simp [harnessesRequest, Text.paragraph] at hl

/-- The grade of an output that was shown is asked for. -/
theorem leads_requestGrade_shown :
    requestGrade.Leads st (Said (Asked first output)) (Arbiter.Still (Shown first output))
      (fun _ => Arbiter.Still (Pinned first)) (Arbiter.Halted (fun _ => True) (Pinned first)) := by
  have hpinned : ∀ c, Asked first output c → Pinned first c := by
    rintro c ⟨front, document, back, h, -⟩
    exact ⟨front, document, _, h⟩
  refine leads_requestGrade_of (leads_tell gradeRequest_ne fun _ => Shown.asked) ?_
    fun _ h => .answered (.same h)
  exact (leads_ask (resumes_asked first output)).mono (fun _ => id) (fun _ => id)
    (fun _ _ => pinned_of_answered) fun _ => .mono hpinned

theorem brings_gradeOf_shown :
    Brings (Act.At st (Arbiter.Still (Shown first output)) (Idle past (First first output)))
      (fun _ => Act.At st (Arbiter.Still (Pinned first)) (Between past first))
      (Broken st past first) (gradeOf output) := by
  refine .bind (Q := fun _ => Act.At st (Arbiter.Still (Shown first output))
    (World.Tells past AsShown fun es => awaited es = some output ∧ First first output (grades es)))
    (fun s hs => ?_) fun _ => ?_
  · refine ⟨hs.settings, hs.focus, hs.world.noting fun es hes => ⟨⟨?_, ?_⟩, asShown_of_idle hes.1⟩⟩
    · rw [awaited_concat]
      rfl
    · rw [grades_concat]
      exact (List.append_nil (grades es)).symm ▸ hes.2
  have hsaid : ∀ es e, awaited es = some output ∧ First first output (grades es) →
      Said (Asked first output) e → (awaited (es ++ [e]) = some output ∧
        First first output (grades (es ++ [e]))) ∧ AsShown es e := by
    intro es e hes he
    rw [he.isNeutral.awaited, he.isNeutral.grades]
    refine ⟨hes, ?_⟩
    cases he with
    | request hc => exact asShown_of_asked hc hes
    | wait n => exact fun _ _ _ _ _ h => by cases h
    | close => exact fun _ _ _ _ _ h => by cases h
  refine .bind ((leads_requestGrade_shown.brings fun hw hl => hw.leads hl hsaid).mono
    (fun _ => id) (fun _ _ => id)
    fun _ _ ht => ⟨ht.settings, ht.focus, ht.world.mono fun _ _ => trivial⟩) fun g => ?_
  refine .bind (Q := fun _ => Act.At st (Arbiter.Still (Pinned first)) (Between past first))
    (fun s hs => ?_) fun _ => .pure fun _ => id
  refine ⟨hs.settings, hs.focus, hs.world.noting fun es hes => ⟨⟨?_, hes.2.graded g⟩, ?_⟩⟩
  · rw [awaited_concat]
    rfl
  · exact fun _ _ _ _ _ h => by cases h

/-- A step of an assessment between two grades. -/
theorem brings_idle {α : Type} {act : Act Arbiter α} {I : Conversation → Prop}
    {J : Arbiter → Prop} {K : α → Arbiter → Prop} {Ψ : List (String × Int) → Prop}
    (h : act.Leads st (Said I) J K (Arbiter.Halted (fun _ => True) (Pinned first))) :
    Brings (Act.At st J (Idle past Ψ)) (fun v => Act.At st (K v) (Idle past Ψ))
      (Broken st past first) act :=
  (h.brings (Idle.leads fun _ he => he.isNeutral)).mono (fun _ => id) (fun _ _ => id)
    fun _ _ ht => ⟨ht.settings, ht.focus, ht.world.mono fun _ _ => trivial⟩

/-- An output is sent that quotes it, discussed, and graded. -/
theorem brings_assess {text : String} (hne : text ≠ "")
    (hq : (Message.user [.text text]).Quotes output) :
    Brings (Act.At st (Arbiter.Still (Pinned first)) (Between past first))
      (fun _ => Act.At st (Arbiter.Still (Pinned first)) (Between past first))
      (Broken st past first) (do
        Arbiter.tell text
        let _ ← Arbiter.ask
        gradeOf output) := by
  have hpinned : ∀ c, Holds first output c → Pinned first c := by
    rintro c ⟨front, document, back, h, -⟩
    exact ⟨front, document, back, h⟩
  refine .bind (brings_idle (I := Holds first output) (Arbiter.leads_talk
    (leads_tell hne fun _ h => Pinned.holds h hq))) fun _ => ?_
  refine .bind (brings_idle (I := Holds first output) (Arbiter.leads_talk
    ((leads_ask (resumes_holds first output)).mono (fun _ => id) (fun _ => id)
      (fun _ _ => shown_of_answered) fun _ => .mono hpinned))) fun _ => ?_
  refine brings_gradeOf_shown.mono (fun s hs => ?_) (fun _ _ => id) fun _ _ => id
  exact ⟨hs.settings, hs.focus, hs.world.mono fun _ h => ⟨h.1, .inr h.2⟩⟩

theorem brings_judgeAgain_shown :
    Brings (Act.At st (Arbiter.Still (Pinned first)) (Between past first))
      (fun _ => Act.At st (Arbiter.Still (Pinned first)) (Between past first))
      (Broken st past first) (judgeAgain output) := by
  refine .bind (brings_idle (I := Pinned first) (Arbiter.leads_effect (Effect.leads_remark _)))
    fun _ => .bind (brings_idle (I := Pinned first) (Arbiter.leads_setGrade _)) fun _ => ?_
  exact brings_assess (reassessRequest_ne output) (quotes_reassess output)

theorem brings_judgeHarnesses_shown :
    Brings (Act.At st (Arbiter.Still (Pinned first)) (Between past first))
      (fun _ => Act.At st (Arbiter.Still (Pinned first)) (Between past first))
      (Broken st past first) (judgeHarnesses output) := by
  have hI := stable_pinned first
  refine .value_bind (fun _ hs => Act.settings_apply hs.settings) ?_
  refine .bind (brings_idle (I := Pinned first) (Arbiter.leads_effect (Effect.leads_remark _)))
    fun _ => .bind (brings_idle (I := Pinned first) (Arbiter.leads_setGrade _)) fun _ => ?_
  refine .bind (brings_idle (I := Pinned first) (Arbiter.leads_tell hI _)) fun _ =>
    .bind (brings_idle (I := Pinned first) (Arbiter.leads_talk (hI.tellBoth _ _))) fun _ =>
    .bind (brings_idle (Arbiter.leads_ask hI)) fun _ => ?_
  exact brings_assess (harnessesRequest_ne output) (quotes_harnesses output)

/-- The first assessment marks the message with the contracts. -/
theorem brings_judgeContracts_shown (path contracts : String) :
    Brings (Act.At st (fun _ : Arbiter => True) (Idle past (· = [])))
      (fun _ => Act.At st (Arbiter.Still (Pinned contracts)) (Between past contracts))
      (fun _ s => s.world.Tells past AsShown fun _ => True) (judgeContracts path contracts) := by
  have hquiet {α : Type} {act : Act Arbiter α} {J : Arbiter → Prop} {K : α → Arbiter → Prop}
      (h : act.Leads st (fun _ => False) J K fun _ => True) :
      Brings (Act.At st J (Idle past (· = []))) (fun v => Act.At st (K v) (Idle past (· = [])))
        (fun _ s => s.world.Tells past AsShown fun _ => True) act :=
    (h.brings (Idle.leads fun _ h => h.elim)).mono (fun _ => id) (fun _ _ => id)
      fun _ _ ht => ht.world.mono fun _ _ => trivial
  have htalk {act : Act Conversation Unit} {K : Unit → Conversation → Prop}
      {D : Conversation → Prop} (h : act.Leads st (fun _ => False) (fun _ => True) K D) :
      Brings (Act.At st (fun _ : Arbiter => True) (Idle past (· = [])))
        (fun v => Act.At st (Arbiter.Still (K v)) (Idle past (· = [])))
        (fun _ s => s.world.Tells past AsShown fun _ => True) (talk act) :=
    hquiet ((Arbiter.leads_talk h).mono (fun _ => id) (fun _ => id) (fun _ _ => id)
      fun _ _ => trivial)
  refine .value_bind (fun _ hs => Act.settings_apply hs.settings) ?_
  refine .bind (hquiet (Act.leads_lift (K := fun _ _ => True) (Effect.leads_remark _)
    (fun _ _ => id) fun _ => id)) fun _ => ?_
  refine .bind (hquiet (Act.leads_modifyFocus (K := fun _ _ => True) fun _ _ => trivial))
    fun _ => ?_
  refine (htalk (stable_true.setSystem _ _)).bind fun _ =>
    (htalk leads_dropMarked_any).bind fun _ =>
    (htalk (leads_attachWith_any _ _)).bind fun _ => ?_
  refine .bind (hquiet (K := fun _ => Arbiter.Still (Pinned contracts)) ?_) fun _ =>
    .value_bind (fun _ hs => Act.settings_apply hs.settings) ?_
  · refine (Arbiter.leads_talk (Act.leads_modifyFocus (K := fun _ => Pinned contracts)
      (D := fun _ => True) ?_)).mono (fun _ => id) (fun _ => id) (fun _ _ => id) fun _ _ => trivial
    rintro _ ⟨c₀, document, rfl⟩
    exact ⟨c₀.messages, document, [], markedAt_markLast c₀ _⟩
  have hI := stable_pinned contracts
  have hask : Brings (Act.At st (Arbiter.Still (Pinned contracts)) (Idle past (· = [])))
      (fun _ => Act.At st (Arbiter.Still (Pinned contracts)) (Between past contracts))
      (Broken st past contracts) (do
        let _ ← Arbiter.ask
        gradeOf contracts) := by
    refine .bind (brings_idle (Arbiter.leads_ask hI)) fun _ =>
      brings_gradeOf_shown.mono (fun s hs => ?_) (fun _ _ => id) fun _ _ => id
    obtain ⟨front, document, back, h⟩ := hs.focus
    exact ⟨hs.settings, ⟨front, document, back, h, .inl rfl⟩,
      hs.world.mono fun _ h => ⟨h.1, .inl ⟨h.2, rfl⟩⟩⟩
  refine Brings.mono (E := Broken st past contracts) (.ite (fun _ => ?_) fun _ => hask)
    (fun _ => id) (fun _ _ => id) fun _ _ ht => ht.world
  exact .bind (brings_idle (I := Pinned contracts) (Arbiter.leads_talk (hI.tellBoth _ _)))
    fun _ => hask

end Assessments

/-! ## The work on a file -/

section File

variable {st : Settings} {past : List Event}

/-- The arbiter's conversation keeps the message of the first assessment. -/
def gradePlan (st : Settings) (past : List Event) (w₀ : Worker) (first : String) : Plan where
  settings := st
  worker := w₀
  heard _ := True
  said _ := True
  heardByArbiter _ := True
  saidByArbiter := Pinned first
  during := Between past first
  after := World.Tells past AsShown fun _ => True

theorem gradePlan_sound {w₀ : Worker} {first : String} (hname : w₀.draftName.isSome) :
    (gradePlan st past w₀ first).Sound := by
  have hjudge {act : Act Arbiter Int}
      (h : Brings (Act.At st (Arbiter.Still (Pinned first)) (Between past first))
        (fun _ => Act.At st (Arbiter.Still (Pinned first)) (Between past first))
        (Broken st past first) act) : (gradePlan st past w₀ first).Kept (byArbiter act) := by
    refine Act.brings_zoom h (fun s hs => ⟨hs.settings, hs.arbiter, hs.world⟩) ?_ ?_
    · exact fun s g t hs ht => ⟨ht.settings, hs.worker, ht.focus, ht.world⟩
    · exact fun s e t hs ht => ⟨ht.settings, hs.worker.halted, ht.focus, ht.world⟩
  have hneutral : ∀ e, Works (fun _ => True) (Pinned first) e → e.IsNeutral := by
    intro e he
    cases he with
    | worker he => exact he.isNeutral
    | arbiter he => exact he.isNeutral
    | write path c => exact ⟨fun _ => rfl, rfl⟩
    | run command directory => exact ⟨fun _ => rfl, rfl⟩
  have hworks {w w' : World} (hw : Between past first w)
      (hl : w.Follows (Works (fun _ => True) (Pinned first)) w') : Between past first w' :=
    hw.follows hneutral hl
  exact ⟨hname, stable_true, stable_pinned first, hworks, fun hw => hw.mono fun _ _ => trivial,
    fun _ => hjudge brings_judgeAgain_shown, fun _ => hjudge brings_judgeHarnesses_shown⟩

/-- A step before the first grade. -/
theorem brings_ungraded {α : Type} {act : Act Crew α} {P : Event → Prop} {J D : Crew → Prop}
    {K : α → Crew → Prop} (hP : ∀ e, P e → e.IsNeutral) (h : act.Leads st P J K D) :
    Brings (Act.At st J (Idle past (· = []))) (fun v => Act.At st (K v) (Idle past (· = [])))
      (fun _ s => s.world.Tells past AsShown fun _ => True) act :=
  (h.brings (Idle.leads hP)).mono (fun _ => id) (fun _ _ => id)
    fun _ _ ht => ht.world.mono fun _ _ => trivial

theorem brings_draft_shown (file : String) :
    Brings (Act.At st (fun _ => True) (Idle past (· = [])))
      (fun _ s => ∃ w₀ first, w₀.draftName.isSome ∧ (gradePlan st past w₀ first).Steady s)
      (fun _ s => s.world.Tells past AsShown fun _ => True) (Workflow.draft file) := by
  have htakes : ∀ e, Worker.TakesOn file e → e.IsNeutral := by
    rintro e (_ | text)
    · exact ⟨fun _ => rfl, rfl⟩
    · exact ⟨fun _ => rfl, rfl⟩
  have hdrafts {name : String} : ∀ e, Worker.Drafts st name e → e.IsNeutral := by
    rintro e (he | c)
    · exact he.isNeutral
    · exact ⟨fun _ => rfl, rfl⟩
  refine (brings_ungraded htakes (Crew.leads_take file)).bind fun _ =>
    (brings_ungraded hdrafts Crew.leads_draftContracts).bind fun _ =>
    (brings_ungraded (fun _ he => he.isNeutral) Crew.leads_selfReview).bind fun contracts => ?_
  refine .value_bind (fun s hs => hs.settings ▸ Crew.draftPath_apply hs.focus.1 ".rs") ?_
  refine .bind (Q := fun _ s => ∃ w₀, w₀.draftName.isSome ∧
    (gradePlan st past w₀ contracts).Steady s) ?_ fun initial => ?_
  · refine Act.brings_zoom (brings_judgeContracts_shown _ contracts)
      (fun s hs => ⟨hs.settings, trivial, hs.world⟩) (fun s _ t hs ht => ?_) fun _ _ _ _ => id
    exact ⟨s.focus.worker, Option.isSome_iff_exists.2 ⟨_, hs.focus.1⟩, ht.settings,
      ⟨rfl, rfl, rfl, trivial⟩, ht.focus, ht.world⟩
  · rintro s ⟨w₀, hname, hs⟩
    exact ((gradePlan_sound hname).rounds file initial s hs).mono
      (fun _ _ ht => ⟨w₀, contracts, hname, ht⟩) fun _ _ ht => ht.world

theorem brings_processFile_shown (file : String) :
    Brings (Act.At st (fun _ => True) (Idle past (· = [])))
      (fun _ s => s.world.Tells past AsShown fun _ => True)
      (fun _ s => s.world.Tells past AsShown fun _ => True) (Workflow.processFile file) := by
  have hquiet {α : Type} {e : Effect α} (he : e.Leads (· = .fetch file)) :
      Brings (Act.At st (fun _ : Crew => True) (Idle past (· = [])))
        (fun _ => Act.At st (fun _ => True) (Idle past (· = [])))
        (fun _ s => s.world.Tells past AsShown fun _ => True) (Act.lift e) := by
    refine brings_ungraded ?_ (Act.leads_lift he (fun _ _ => id) fun _ => id)
    rintro e rfl
    exact ⟨fun _ => rfl, rfl⟩
  refine (hquiet (Workflow.leads_isAvailable rfl)).bind fun _ => .ite (fun _ => ?_) fun _ => ?_
  · refine (brings_draft_shown file).bind fun grade => ?_
    rintro s ⟨w₀, first, hname, hs⟩
    exact ((gradePlan_sound hname).rest file grade s hs).mono (fun _ _ ht => ht.world)
      fun _ _ ht => ht.world
  · exact (hquiet (Effect.leads_remark _)).mono (fun _ => id)
      (fun _ _ ht => ht.world.mono fun _ _ => trivial) fun _ _ => id

end File

namespace Workflow

/-- Whenever a grade is asked for, the output to be graded is in a message before the request. The
one exception is an output after the first, when nothing but the message of the first assessment was
left of the conversation. -/
theorem processFile_shows {file : String} {crew crew' : Crew} {w w' : World} {r : Except Stop Unit}
    {before after : List Event} {model : Entry} {system : List String} {messages : List Message}
    {mark : Int} {output : String} (hrun : (processFile file).runOn crew w = (r, crew', w'))
    (hevents : w'.trace.events =
      w.trace.events ++ (before ++ .request model system messages mark :: after))
    (hawaited : awaited before = some output) :
    ∃ front, messages = front ++ [gradeMessage] ∧
      ((∃ m ∈ front, m.Quotes output) ∨ ∃ first g rest document,
        grades before = (first, g) :: rest ∧ front = [assessment first document]) := by
  have hstart : Act.At w.settings (fun _ : Crew => True) (Idle w.trace.events (· = [])) ⟨crew, w⟩ :=
    ⟨rfl, trivial, .start w ⟨rfl, rfl⟩⟩
  obtain ⟨es, hes, -, halong⟩ := Act.of_runOn (T := fun _ => World.Tells w.trace.events AsShown
    fun _ => True) (brings_processFile_shown file _ hstart) hrun
  have heq : es = before ++ .request model system messages mark :: after :=
    List.append_cancel_left (hes.symm.trans hevents)
  exact halong before _ after heq model system messages mark output rfl hawaited

/-- A crew that is about to hear these replies. -/
def hearing (worker arbiter : Script) : Crew :=
  let conversation (script : Script) : Conversation :=
    { messages := [], mark := -1, promptDir := "prompts/", system := [""], model := .text "",
      region := none, script := script }
  ⟨⟨"", none, none, none, none, conversation worker⟩, ⟨-1, conversation arbiter⟩⟩

def replies (texts : List String) : Script := texts.map fun s => .response (Datum.saying s)

/-- The world with these settings and files, where the prompts are short. The disk is written out: a
run there need not read the paths of the prompts. -/
def desk (st : Settings) (files : List (String × String)) : World :=
  let directory : Location := ⟨.above 0, ["prompts"]⟩
  let prompts := [("arbiter_system_prompt.txt", "a"), ("worker_autorefine.txt", "r"),
    ("worker_closing_refine.txt", "c"), ("output_format.txt", "o"),
    ("worker_system_prompt.txt", "s")]
  let world := World.ofFiles files
  { world with
    settings := st
    disk := { nodes :=
      prompts.map (fun p => (directory.child p.1, .file (.text p.2))) ++
        (world.disk.ensureDirectory directory).nodes } }

/-- One file, no type invariants. -/
def oneFile : World :=
  desk { Settings.default with sourceDir := "src/", wantInvariants := false }
    [("src/a.rs", "fn f() \x7b\x7d\n")]

/-- A crew whose first draft gets a low grade; these are the arbiter's replies to the second. -/
def refining (script : Script) : Crew :=
  hearing (replies ["ok", "c", "ok", "first", "ok", "c", "ok", "second"])
    (replies ["ok", "3", "low", "improve it"] ++ script)

/-- The request for the grade of the second draft. -/
theorem processFile_shows_second_draft :
    ∃ r crew w' before model system messages mark after,
      (processFile "src/a.rs").runOn (refining (replies ["ok", "5", "fine", "fine"])) oneFile =
        (r, crew, w') ∧
      w'.trace.events = before ++ .request model system messages mark :: after ∧
      awaited before = some "second" ∧
      ∃ front, messages = front ++ [gradeMessage] ∧ ∃ m ∈ front, m.Quotes "second" := by
  have heval : (fun es => requestAt es 19 (·.length == 11) && awaited (es.take 19) == some "second")
      ((processFile "src/a.rs").runOn (refining (replies ["ok", "5", "fine", "fine"]))
        oneFile).2.2.trace.events = true := by
    decide +kernel
  obtain ⟨⟨r, crew, w'⟩, hrun⟩ : ∃ run, (processFile "src/a.rs").runOn
    (refining (replies ["ok", "5", "fine", "fine"])) oneFile = run := ⟨_, rfl⟩
  rw [hrun] at heval
  simp only [Bool.and_eq_true, beq_iff_eq] at heval
  obtain ⟨model, system, messages, mark, hlength, hes⟩ := exists_of_requestAt heval.1
  refine ⟨r, crew, w', _, model, system, messages, mark, _, hrun, hes, heval.2, ?_⟩
  obtain ⟨front, rfl, hquotes | ⟨first, g, rest, document, -, rfl⟩⟩ :=
    processFile_shows hrun hes heval.2
  · exact ⟨front, rfl, hquotes⟩
  · simp at hlength

/-- The model rejects the second draft twice, and is then asked for its grade without it. -/
theorem processFile_grades_unseen_draft :
    ∃ r crew w' before model system messages mark after,
      (processFile "src/a.rs").runOn
        (refining (.refusal "ValidationException" (some "rejected") ::
          .refusal "ValidationException" (some "rejected") :: replies ["5", "fine"])) oneFile =
        (r, crew, w') ∧
      w'.trace.events = before ++ .request model system messages mark :: after ∧
      awaited before = some "second" ∧ ¬ ∃ m ∈ messages, m.Quotes "second" := by
  have heval : (fun es =>
      requestAt es 20 (fun messages => !decide (∃ m ∈ messages, m.Quotes "second")) &&
        awaited (es.take 20) == some "second")
      ((processFile "src/a.rs").runOn
        (refining (.refusal "ValidationException" (some "rejected") ::
          .refusal "ValidationException" (some "rejected") :: replies ["5", "fine"]))
        oneFile).2.2.trace.events = true := by
    decide +kernel
  obtain ⟨⟨r, crew, w'⟩, hrun⟩ : ∃ run, (processFile "src/a.rs").runOn
    (refining (.refusal "ValidationException" (some "rejected") ::
      .refusal "ValidationException" (some "rejected") :: replies ["5", "fine"])) oneFile = run :=
    ⟨_, rfl⟩
  rw [hrun] at heval
  simp only [Bool.and_eq_true, beq_iff_eq] at heval
  obtain ⟨model, system, messages, mark, hquotes, hes⟩ := exists_of_requestAt heval.1
  refine ⟨r, crew, w', _, model, system, messages, mark, _, hrun, hes, heval.2, ?_⟩
  simpa using hquotes

end Workflow

end Covenant
