import Covenant.Proofs.Conversation.Yield
import Covenant.Proofs.Crew.Draft
import Covenant.Proofs.Text.Field
import Covenant.Proofs.Text.Numeral

/-!
# Where a grade comes from

Whatever the arbiter assesses, its grade is reset first. Then its model is asked two or three times,
and the reply to the last request is read as a grade (`Assessment.turns_run`). The requests before
that have no part in it, nor has any grade from an earlier assessment.
-/

namespace Covenant.Arbiter

open Text Act
open Conversation (Holding Prepared)

/-! ## Grades in replies -/

/-- The grade in a reply: the number that is written by the longest possible beginning of the part
before the first space, and `-1` if no beginning of it writes a number. -/
def IsGrade (digits : DigitTable) (reply : String) (g : Int) : Prop :=
  ∃ field, IsFirstField " ".toList field reply.toList ∧
    ((∃ p, IsLongestNumeral digits field p g) ∨ NoNumeral digits field ∧ g = -1)

theorem isGrade_iff {digits : DigitTable} {reply : String} {g : Int} :
    IsGrade digits reply g ↔ g = (gradeIn? digits reply).getD (-1) := by
  have hfirst (field : List Char) : IsFirstField " ".toList field reply.toList ↔
      field = firstField " " reply.toList :=
    firstField_eq_iff.symm.trans eq_comm
  have hgrade : IsGrade digits reply g ↔
      (∃ p, IsLongestNumeral digits (firstField " " reply.toList) p g) ∨
        NoNumeral digits (firstField " " reply.toList) ∧ g = -1 := by
    simp only [IsGrade, hfirst, exists_eq_left]
  rw [hgrade, ← leadingNumeral?_eq_some_iff, ← leadingNumeral?_eq_none_iff, gradeIn?]
  cases leadingNumeral? digits (firstField " " reply.toList) with
  | none => simp
  | some n => simp [eq_comm]

/-! ## Steps of an assessment -/

/-- The grade is reset, and the conversation is in `p`. -/
def Reset (p : Conversation → Prop) (a : Arbiter) : Prop := a.grade = -1 ∧ p a.conversation

/-- After `n` exchanges, these replies are left of the script. -/
def Heard (script : Script) (n : Nat) (rest : Script) : Prop :=
  ∃ texts, texts.length = n ∧ Script.Exchanges script texts rest

/-- The grade is that of the reply to the last request, before which the replies were in `P`. -/
def GradeOfLast (digits : DigitTable) (P : Script → Prop) (g : Int) (a : Arbiter) : Prop :=
  a.grade = g ∧ ∃ script reply, P script ∧
    Script.Yields false script reply a.conversation.script ∧ IsGrade digits reply g

section

variable {α : Type} {host : Host} {P : Script → Prop} {script : Script} {n : Nat}

theorem turns_talk {p : Conversation → Prop} {q : α → Conversation → Prop}
    {act : Act Conversation α} (h : Turns host p q act) :
    Turns host (Reset p) (fun v => Reset (q v)) (talk act) :=
  brings_zoom h (fun _ hs => ⟨hs.1, hs.2.2⟩) (fun _ _ _ hs ht => ⟨ht.1, hs.2.1, ht.2⟩)
    fun _ _ _ _ _ => trivial

theorem turns_reset : Turns host (fun a => a.conversation.script = script)
    (fun _ => Reset (Holding (Heard script 0))) (setGrade (-1)) :=
  turns_modifyFocus fun _ ha => ⟨rfl, [], rfl, ha ▸ .nil _⟩

theorem turns_tell {text : String} (h : text ≠ "") :
    Turns host (Reset (Holding P)) (fun _ => Reset (Prepared P)) (tell text) :=
  turns_talk (Conversation.turns_tell h)

theorem turns_ask :
    Turns host (Reset (Prepared (Heard script n)))
      (fun _ => Reset (Holding (Heard script (n + 1)))) ask := by
  refine (turns_talk Conversation.turns_ask).mono (fun _ => id) fun text a ha => ⟨ha.1, ?_⟩
  obtain ⟨-, next, ⟨texts, hlength, htexts⟩, hyields⟩ := ha
  refine ⟨texts ++ [text], ?_, htexts.concat hyields⟩
  rw [List.length_append, hlength]
  rfl

theorem paragraph_ne_empty (margin closing : Nat) (ls : List String) :
    paragraph margin closing ls ≠ "" := by
  intro h
  have hlist := congrArg String.toList h
  simp [paragraph] at hlist

theorem turns_requestGrade :
    Turns host (Reset (Holding P)) (GradeOfLast host.digits P) requestGrade := by
  have hend (g : Int) : Turns host (fun a => a.grade = g ∧ GradeOfLast host.digits P g a)
      (GradeOfLast host.digits P) (do
      let g := (← Act.focus).grade
      if 1 ≤ g && g ≤ 5 then Effect.remark ("\tGrade: " ++ toString g ++ "/5")
      return g : Act Arbiter Int) := by
    refine turns_focus_bind fun a ha => ?_
    rw [ha.1]
    have hreturn : Turns host (fun a => a.grade = g ∧ GradeOfLast host.digits P g a)
        (GradeOfLast host.digits P) (pure g) := turns_pure fun _ ha => ha.2
    refine Turns.ite (b := (1 ≤ g && g ≤ 5) = true) ?_ hreturn
    exact (turns_lift (Effect.leads_remark _)).bind fun _ => hreturn
  refine (turns_tell (paragraph_ne_empty _ _ _)).bind fun _ =>
    (turns_talk Conversation.turns_ask).bind fun reply => turns_get_bind fun s hs _ => ?_
  dsimp only
  rw [congrArg Host.digits hs]
  cases hgrade : gradeIn? host.digits reply with
  | some g =>
    refine .bind (q := fun _ a => a.grade = g ∧ GradeOfLast host.digits P g a) ?_ fun _ => hend g
    refine turns_modifyFocus fun a ha => ?_
    obtain ⟨-, script, hP, hyields⟩ := ha
    exact ⟨rfl, rfl, script, reply, hP, hyields, isGrade_iff.2 (by rw [hgrade]; rfl)⟩
  | none =>
    refine Turns.mono (hend (-1)) ?_ fun _ _ => id
    rintro a ⟨hreset, script, hP, hyields⟩
    exact ⟨hreset, hreset, script, reply, hP, hyields, isGrade_iff.2 (by rw [hgrade]; rfl)⟩

theorem turns_gradeOf (output : String) :
    Turns host (Reset (Holding P)) (GradeOfLast host.digits P) (gradeOf output) :=
  (turns_lift (Effect.leads_record trivial fun _ => rfl)).bind fun _ =>
    turns_requestGrade.bind fun _ =>
    (turns_lift (Effect.leads_record trivial fun _ => rfl)).bind fun _ => turns_pure fun _ => id

end

/-! ## Assessments -/

/-- What the arbiter is given to assess. -/
inductive Assessment
  | contracts (path text : String)
  | harnesses (text : String)
  | again (text : String)
  deriving DecidableEq, Repr

namespace Assessment

/-- Has the arbiter assess it. -/
def run : Assessment → Act Arbiter Int
  | .contracts path text => judgeContracts path text
  | .harnesses text => judgeHarnesses text
  | .again text => judgeAgain text

/-- The number of requests before the one for the grade. -/
def requests : Assessment → Nat
  | .contracts _ _ => 1
  | .harnesses _ => 2
  | .again _ => 1

end Assessment

section

variable {host : Host} {script : Script}

theorem turns_judgeContracts (path contracts : String) :
    Turns host (fun a => a.conversation.script = script) (GradeOfLast host.digits (Heard script 1))
      (judgeContracts path contracts) := by
  have hrest : Turns host (Reset (Prepared (Heard script 0)))
      (GradeOfLast host.digits (Heard script 1)) (ask >>= fun _ => gradeOf contracts) :=
    turns_ask.bind fun _ => turns_gradeOf contracts
  refine (turns_lift Effect.leads_settings).bind fun _ =>
    (turns_lift (Effect.leads_remark _)).bind fun _ => turns_reset.bind fun _ => ?_
  refine (turns_talk (Conversation.turns_setSystem _ _)).bind fun _ =>
    (turns_talk Conversation.turns_dropMarked).bind fun _ =>
    (turns_talk (Conversation.turns_attachWith _ _)).bind fun _ =>
    (turns_talk Conversation.turns_markLast).bind fun _ =>
    (turns_lift Effect.leads_settings).bind fun st => ?_
  exact .ite ((turns_talk (Conversation.turns_tellBoth _ _)).bind fun _ => hrest) hrest

theorem turns_judgeHarnesses (harnesses : String) :
    Turns host (fun a => a.conversation.script = script) (GradeOfLast host.digits (Heard script 2))
      (judgeHarnesses harnesses) := by
  have hnotice : harnessesNotice ≠ "" := paragraph_ne_empty _ _ _
  have hrequest : harnessesRequest harnesses ≠ "" := by
    simp [harnessesRequest, paragraph_ne_empty]
  exact (turns_lift Effect.leads_settings).bind fun _ =>
    (turns_lift (Effect.leads_remark _)).bind fun _ => turns_reset.bind fun _ =>
    (turns_tell hnotice).bind fun _ =>
    (turns_talk (Conversation.turns_tellBoth _ _)).bind fun _ => turns_ask.bind fun _ =>
    (turns_tell hrequest).bind fun _ => turns_ask.bind fun _ => turns_gradeOf harnesses

theorem turns_judgeAgain (output : String) :
    Turns host (fun a => a.conversation.script = script) (GradeOfLast host.digits (Heard script 1))
      (judgeAgain output) := by
  have hrequest : reassessRequest output ≠ "" := by
    simp [reassessRequest, paragraph_ne_empty]
  exact (turns_lift (Effect.leads_remark _)).bind fun _ => turns_reset.bind fun _ =>
    (turns_tell hrequest).bind fun _ => turns_ask.bind fun _ => turns_gradeOf output

theorem Assessment.turns_run (j : Assessment) :
    Turns host (fun a => a.conversation.script = script)
      (GradeOfLast host.digits (Heard script j.requests)) j.run := by
  cases j with
  | contracts path text => exact turns_judgeContracts path text
  | harnesses text => exact turns_judgeHarnesses text
  | again text => exact turns_judgeAgain text

end

/-- Whatever the arbiter has graded before, an assessment that returns has asked its client for a
fixed number of replies, and the grade, which is returned and kept, is the one grade of the last of
them. -/
theorem Assessment.grade_of_last_reply (j : Assessment) {a a' : Arbiter} {w w' : World} {g : Int}
    (h : j.run.runOn a w = (.ok g, a', w')) :
    a'.grade = g ∧ ∃ earlier reply, earlier.length = j.requests ∧
      Script.Exchanges a.conversation.script (earlier ++ [reply]) a'.conversation.script ∧
      ∀ x, IsGrade w.digits reply x ↔ x = g := by
  have hends : Ends j.run ⟨a, w⟩ (fun v t => t.world.toHost = w.toHost ∧
      GradeOfLast w.digits (Heard a.conversation.script j.requests) v t.focus) fun _ _ => True :=
    j.turns_run ⟨a, w⟩ ⟨rfl, rfl⟩
  have hgraded : ∀ v, Except.ok g = .ok v →
      GradeOfLast w.digits (Heard a.conversation.script j.requests) v a' :=
    Act.of_runOn_result (T := fun r (b : Arbiter) _ => ∀ v, r = .ok v →
      GradeOfLast w.digits (Heard a.conversation.script j.requests) v b)
      (hends.mono (fun v t ht v' hv => Except.ok.inj hv ▸ ht.2) fun _ _ _ _ hv => by cases hv) h
  obtain ⟨hgrade, script, reply, ⟨earlier, hlength, hearlier⟩, hyields, hreply⟩ := hgraded g rfl
  refine ⟨hgrade, earlier, reply, hlength, hearlier.concat hyields, fun x => ?_⟩
  rw [isGrade_iff.1 hreply]
  exact isGrade_iff

/-- The digits of a script that came with the fifteenth edition. -/
example : gradeIn? .unicode15 (String.ofList [Char.ofNat 0x11f55, '!']) = some 5 ∧
    gradeIn? .unicode14 (String.ofList [Char.ofNat 0x11f55, '!']) = none := by decide +kernel

/-- An arbiter that gave the best grade before, and whose client replies with these texts. -/
def seasoned (texts : List String) : Arbiter :=
  ⟨5, { messages := [], mark := -1, promptDir := "prompts/", system := [""], model := .text "",
        region := none, script := texts.map fun s => .response (Datum.saying s) }⟩

/-- Neither the grade before nor the number in the first reply is returned. -/
theorem Assessment.grade_of_last_reply_missing :
    ∃ a' w', (Assessment.again "x").run.runOn (seasoned ["5", "n/a"]) (World.ofFiles []) =
        (.ok (-1), a', w') ∧ a'.grade = -1 ∧ ∃ earlier reply, earlier.length = 1 ∧
      Script.Exchanges (seasoned ["5", "n/a"]).conversation.script (earlier ++ [reply])
        a'.conversation.script ∧ ∀ x, IsGrade .unicode15 reply x ↔ x = -1 := by
  have heval : ((Assessment.again "x").run.runOn (seasoned ["5", "n/a"])
      (World.ofFiles [])).1.toOption = some (-1) := by decide +kernel
  rcases hrun : (Assessment.again "x").run.runOn (seasoned ["5", "n/a"]) (World.ofFiles [])
    with ⟨r, a', w'⟩
  rw [hrun] at heval
  obtain rfl : r = .ok (-1) := eq_ok_of_toOption heval
  exact ⟨a', w', rfl, Assessment.grade_of_last_reply (.again "x") hrun⟩

end Covenant.Arbiter
