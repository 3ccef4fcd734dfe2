import Covenant.Proofs.Conversation.Answer
import Covenant.Proofs.Crew.Draft
import Covenant.Proofs.Crew.Talk
import Covenant.Proofs.Text.Field

/-!
# How harnesses are put together

The worker is told about harnesses, and then asked for that of each function of its contracts. What
its model answers is searched for code, and the module is made of all code that was found, in order
(`draftHarnesses_assembles`).
-/

namespace Covenant.Worker

open Text Conversation

/-! ## Code in replies -/

/-- The code is what stands after the first opening fence of the reply, up to the next opening
fence, and of that what stands before the next fence. That is all up to the next fence, unless an
opening fence with more than three backticks follows. -/
def IsCode (reply code : String) : Prop :=
  ∃ before rest part, FirstAt "```rust\n".toList before rest reply.toList ∧
    IsFirstField "```rust\n".toList part rest ∧ IsFirstField "```".toList code.toList part ∧
    (¬ "````rust\n".toList <:+: rest → IsFirstField "```".toList code.toList rest)

/-- There is a block of Rust code in the reply. -/
def HasCode (reply : String) : Prop := "```rust\n".toList <:+: reply.toList

theorem IsCode.hasCode {reply code : String} (h : IsCode reply code) : HasCode reply := by
  obtain ⟨before, rest, part, hfirst, -⟩ := h
  exact hfirst.isInfix

theorem isCode_of_fencedCode? {reply code : String} (h : fencedCode? reply = some code) :
    IsCode reply code := by
  obtain ⟨field, hfield, rfl⟩ := Option.map_eq_some_iff.1 h
  obtain ⟨⟨before, rest⟩, hcut, rfl⟩ := Option.map_eq_some_iff.1 hfield
  have hcode := @String.toList_ofList (firstField "```" (firstField "```rust\n" rest))
  exact ⟨before, rest, _, cutAt?_eq_some_iff.1 hcut, firstField_eq_iff.1 rfl,
    firstField_eq_iff.1 hcode.symm,
    fun hno => firstField_eq_iff.1 ((firstField_fence hno).symm.trans hcode.symm)⟩

theorem not_hasCode_of_fencedCode? {reply : String} (h : fencedCode? reply = none) :
    ¬ HasCode reply := by
  rw [HasCode, ← contains_eq_false_iff, ← isSome_secondField?, Option.isSome_eq_false_iff]
  rw [fencedCode?, Option.map_eq_none_iff] at h
  rw [h]
  rfl

/-- These are the codes in the replies, one of each reply that has code. -/
inductive Gathers : List String → List String → Prop
  | nil : Gathers [] []
  | code {reply code : String} {replies codes : List String} (head : IsCode reply code)
    (tail : Gathers replies codes) : Gathers (reply :: replies) (code :: codes)
  | none {reply : String} {replies codes : List String} (head : ¬ HasCode reply)
    (tail : Gathers replies codes) : Gathers (reply :: replies) codes

theorem Gathers.eq_nil_iff {replies codes : List String} (h : Gathers replies codes) :
    codes = [] ↔ ∀ reply ∈ replies, ¬ HasCode reply := by
  induction h with
  | nil => simp
  | code head tail ih => simp [head.hasCode]
  | none head tail ih => simp [head, ih]

/-- The codes, each on a new line. -/
def joined (codes : List String) : String := String.join (codes.map ("\n" ++ ·))

theorem joined_cons (code : String) (codes : List String) :
    joined (code :: codes) = "\n" ++ code ++ joined codes := by
  rw [joined, List.map_cons, String.join_cons]
  rfl

theorem joined_eq_empty_iff {codes : List String} : joined codes = "" ↔ codes = [] := by
  cases codes with
  | nil => simp [joined]
  | cons code codes =>
    rw [joined_cons, ← String.toList_inj]
    simp

/-- The module of harnesses is made of the code in these replies: it is empty without any, and else
has all of it between the opening and a closing brace. -/
structure Assembled (replies : List String) (text : String) : Prop where
  empty : (∀ reply ∈ replies, ¬ HasCode reply) → text = ""
  codes : (∃ reply ∈ replies, HasCode reply) → ∃ codes, Gathers replies codes ∧
    text = "#[cfg(kani)] mod verify \x7buse super::*;\n" ++ joined codes ++ "\x7d"

theorem assembled_harnessModule {replies codes : List String} (h : Gathers replies codes) :
    Assembled replies (harnessModule (joined codes)) := by
  constructor
  · intro hno
    rw [h.eq_nil_iff.2 hno]
    rfl
  · rintro ⟨reply, hmem, hcode⟩
    have hne : (joined codes == "") = false := by
      rw [beq_eq_false_iff_ne, Ne, joined_eq_empty_iff, h.eq_nil_iff]
      exact fun hno => hno reply hmem hcode
    refine ⟨codes, h, ?_⟩
    rw [harnessModule, hne, if_neg Bool.false_ne_true]
    rfl

/-! ## The dialogue -/

/-- The rounds in which the worker is asked for the harnesses of the functions. -/
def harnessRounds (functions : List String) (answers : List Answer) : List (Message × Answer) :=
  (functions.map fun f => .user [.text (harnessRequest f)]).zip answers

/-- The rounds of the whole dialogue: the worker is told about harnesses first. -/
def harnessDialogue (contracts prompt : String) (intro : Answer) (answers : List Answer) :
    List (Message × Answer) :=
  (.user [.text prompt], intro) ::
    harnessRounds ((Contracts.listedFunctions contracts.toList).map String.ofList) answers

theorem harnessRequest_ne_empty (f : String) : harnessRequest f ≠ "" := by
  intro h
  have hlist := congrArg String.toList h
  simp [harnessRequest, paragraph] at hlist

theorem talk_apply {α : Type} {act : Act Conversation α} {a : α} {wk : Worker} {c : Conversation}
    {w v : World} (h : act ⟨wk.conversation, w⟩ = .ok a ⟨c, v⟩) :
    talk act ⟨wk, w⟩ = .ok a ⟨{ wk with conversation := c }, v⟩ := by
  rw [talk, Act.zoom, h]

/-- Each function is asked for in a round of its own, and the code in the answers is given. -/
theorem draftHarnessesOf_apply (functions : List String) {answers : List Answer} {rest : Script}
    (wk : Worker) (h : Script.Answers wk.conversation.script answers rest)
    (hlen : answers.length = functions.length) (w : World) :
    ∃ codes v, Gathers (answers.map Answer.text) codes ∧
      w.Does ((dialogue wk.conversation.messages (harnessRounds functions answers)).map
        wk.conversation.sending) v ∧
      draftHarnessesOf functions ⟨wk, w⟩ = .ok (joined codes)
        ⟨{ wk with conversation := wk.conversation.heard (harnessRounds functions answers) rest },
          v⟩ := by
  induction functions generalizing answers wk w with
  | nil =>
    obtain rfl := List.length_eq_zero_iff.1 hlen
    cases h
    refine ⟨[], w, .nil, .trace rfl, ?_⟩
    rw [show harnessRounds [] [] = [] from rfl, heard_nil]
    rfl
  | cons f fs ih =>
    cases h with
    | nil => cases hlen
    | @cons _ next _ a answers head tail =>
      let m : Message := .user [.text (harnessRequest f)]
      have htell : talk (tell (harnessRequest f)) ⟨wk, w⟩ =
          .ok () ⟨{ wk with conversation := wk.conversation.push m }, w⟩ :=
        talk_apply (tell_apply (harnessRequest_ne_empty f) _ w)
      have hask : ask ⟨{ wk with conversation := wk.conversation.push m }, w⟩ = .ok a.text _ :=
        talk_apply (ask_push head m w)
      obtain ⟨codes, v, hcodes, hdoes, hrun⟩ := ih
        { wk with conversation := wk.conversation.heard [(m, a)] next } tail (Nat.succ.inj hlen)
        (w.noting (wk.conversation.sending (wk.conversation.messages ++ [m])))
      rw [messages_heard_one] at hdoes
      rw [heard_cons] at hrun
      have hdialogue := (World.Does.noting w _).trans hdoes
      -- the code of this answer comes before that of the others
      rw [draftHarnessesOf, Act.bind_of_ok htell, Act.bind_of_ok hask]
      cases hcode : fencedCode? a.text with
      | none =>
        refine ⟨codes, v, .none (not_hasCode_of_fencedCode? hcode) hcodes, hdialogue, ?_⟩
        rw [Act.bind_of_ok hrun]
        simp only [String.empty_append]
        rfl
      | some code =>
        refine ⟨code :: codes, v, .code (isCode_of_fencedCode? hcode) hcodes, hdialogue, ?_⟩
        rw [Act.bind_of_ok hrun, joined_cons]
        rfl

/-! ## The module -/

theorem hasNoContracts_eq_false {s : Scene Worker} {contracts : String} (hfile : s.focus.file ≠ "")
    (hcontracts : s.focus.contracts = some contracts) (hne : contracts ≠ "") :
    hasNoContracts s = .ok false s := by
  show (if s.focus.file == "" then pure true
    else do return (← need (·.contracts)) == "" : Act Worker Bool) s = _
  rw [if_neg (by simpa using hfile), Act.bind_of_ok (need_apply hcontracts)]
  show EStateM.Result.ok (contracts == "") s = _
  rw [beq_eq_false_iff_ne.2 hne]

theorem listedFunctions_apply {s : Scene Worker} {contracts : String}
    (h : s.focus.contracts = some contracts) :
    listedFunctions s =
      .ok ((Contracts.listedFunctions contracts.toList).map String.ofList) s := by
  rw [listedFunctions, Act.bind_of_ok (need_apply h)]
  rfl

/-- The run, from the world `u` in which the remark leaves off. -/
theorem draftHarnesses_apply {wk : Worker} {w u : World} {contracts prompt : String}
    {intro : Answer} {answers : List Answer} {rest : Script} (hfile : wk.file ≠ "")
    (hcontracts : wk.contracts = some contracts) (hne : contracts ≠ "")
    (hremark : Effect.remark ("Generating harnesses for " ++ wk.file) w = .ok () u)
    (hprompt : Effect.readText (wk.conversation.promptDir ++ "harnesses.txt") u = .ok prompt u)
    (hanswers : Script.Answers wk.conversation.script (intro :: answers) rest)
    (hlen : answers.length = (Contracts.listedFunctions contracts.toList).length) :
    ∃ codes v, Gathers (answers.map Answer.text) codes ∧
      u.Does ((dialogue wk.conversation.messages
        (harnessDialogue contracts prompt intro answers)).map wk.conversation.sending) v ∧
      draftHarnesses ⟨wk, w⟩ = .ok (harnessModule (joined codes))
        ⟨{ wk with
            harnesses := some (harnessModule (joined codes))
            conversation := wk.conversation.heard
              (harnessDialogue contracts prompt intro answers) rest }, v⟩ := by
  cases hanswers with
  | @cons _ next _ _ _ head tail =>
    let m : Message := .user [.text prompt]
    let unset : Worker := { wk with harnesses := some "" }
    have hremark' : (Act.lift (Effect.remark ("Generating harnesses for " ++ wk.file)) :
        Act Worker Unit) ⟨wk, w⟩ = .ok () ⟨wk, u⟩ := by
      rw [Act.lift, hremark]
    have htell : talk (tellPrompt "harnesses.txt") ⟨unset, u⟩ =
        .ok () ⟨{ unset with conversation := wk.conversation.push m }, u⟩ :=
      talk_apply (tellPrompt_apply (by decide) hprompt)
    have hask : ask ⟨{ unset with conversation := wk.conversation.push m }, u⟩ = .ok intro.text _ :=
      talk_apply (ask_push head m u)
    obtain ⟨codes, v, hcodes, hdoes, hrun⟩ := draftHarnessesOf_apply
      ((Contracts.listedFunctions contracts.toList).map String.ofList)
      { unset with conversation := wk.conversation.heard [(m, intro)] next } tail
      (by rw [hlen, List.length_map])
      (u.noting (wk.conversation.sending (wk.conversation.messages ++ [m])))
    rw [messages_heard_one] at hdoes
    rw [heard_cons] at hrun
    refine ⟨codes, v, hcodes, (World.Does.noting u _).trans hdoes, ?_⟩
    rw [draftHarnesses, Act.focus_bind_apply]
    refine (Act.bind_of_ok (hasNoContracts_eq_false hfile hcontracts hne) _).trans ?_
    rw [if_neg Bool.false_ne_true]
    refine (Act.bind_of_ok hremark' _).trans ?_
    show (talk (tellPrompt "harnesses.txt") >>= _ : Act Worker String) ⟨unset, u⟩ = _
    refine (Act.bind_of_ok htell _).trans ((Act.bind_of_ok hask _).trans ?_)
    refine (Act.bind_of_ok (listedFunctions_apply hcontracts) _).trans ?_
    exact Act.bind_of_ok hrun _

/-- A worker with a file and contracts, whose client has an answer to each request, tells its model
about harnesses in one request and asks for the harness of each function of the contracts, in order,
in one request. Its harnesses are made of the code in the answers to the latter. -/
theorem draftHarnesses_assembles {wk : Worker} {w : World} {contracts prompt : String}
    (hfile : wk.file ≠ "") (hcontracts : wk.contracts = some contracts) (hne : contracts ≠ "")
    (hprinted : w.settings.verbose = true →
      (Effect.printed? w ("Generating harnesses for " ++ wk.file)).isSome = true)
    (hprompt : Effect.readText (wk.conversation.promptDir ++ "harnesses.txt") w = .ok prompt w)
    (hscript : Script.Succeeds wk.conversation.script
      ((Contracts.listedFunctions contracts.toList).length + 1)) :
    ∃ intro answers rest text v,
      Script.Answers wk.conversation.script (intro :: answers) rest ∧
      answers.length = (Contracts.listedFunctions contracts.toList).length ∧
      draftHarnesses.runOn wk w = (.ok text, { wk with
        harnesses := some text
        conversation := wk.conversation.heard
          (harnessDialogue contracts prompt intro answers) rest }, v) ∧
      w.Does ((dialogue wk.conversation.messages
        (harnessDialogue contracts prompt intro answers)).map wk.conversation.sending) v ∧
      Assembled (answers.map Answer.text) text := by
  obtain ⟨all, rest, hanswers, hlen⟩ := hscript.exists_answers
  obtain ⟨intro, answers, rfl⟩ := List.exists_cons_of_length_eq_add_one hlen
  have hlen' := Nat.succ.inj hlen
  have hends := Effect.ends_remark_of_printed hprinted
  cases hremark : Effect.remark ("Generating harnesses for " ++ wk.file) w with
  | error x u => exact (hends.of_error hremark).elim
  | ok _ u =>
    have hu := hends.of_ok hremark
    obtain ⟨s, hload, hs, -⟩ := Effect.readText_eq_ok_iff.1 hprompt
    rw [← hu.disk] at hload
    have hprompt' := Effect.readText_eq_ok_iff.2 ⟨s, hload, hs, rfl⟩
    obtain ⟨codes, v, hcodes, hdoes, hrun⟩ :=
      draftHarnesses_apply hfile hcontracts hne hremark hprompt' hanswers hlen'
    refine ⟨intro, answers, rest, _, v, hanswers, hlen', ?_, hu.trans hdoes,
      assembled_harnessModule hcodes⟩
    rw [Act.runOn, hrun]

/-- A worker with a file and these contracts, whose client replies with these texts. -/
def harnessing (contracts : String) (texts : List String) : Worker :=
  { file := "a.rs", draftName := none, source := none, contracts := some contracts
    harnesses := none
    conversation :=
      { messages := [], mark := -1, promptDir := "prompts/", system := [""], model := .text "",
        region := none, script := texts.map fun s => .response (Datum.saying s) } }

/-- The second function is the one that gets a harness. -/
theorem draftHarnesses_assembles_second :
    let wk := harnessing "S\nf\n\nS\ng" ["ok", "no", "```rust\nab```"]
    let w := World.ofFiles [("prompts/harnesses.txt", "h")]
    ∃ (answers : List Answer) (text : String) (wk' : Worker) (v : World), answers.length = 2 ∧
      draftHarnesses.runOn wk w = (.ok text, wk', v) ∧ Assembled (answers.map Answer.text) text ∧
      text = "#[cfg(kani)] mod verify \x7buse super::*;\n\nab\x7d" := by
  intro wk w
  have hscript : Script.Succeeds wk.conversation.script 3 :=
    .response (s := ⟨wk.conversation, w⟩) rfl (.response (s := ⟨wk.conversation, w⟩) rfl
      (.response (s := ⟨wk.conversation, w⟩) rfl (.zero _)))
  have hfile : wk.file ≠ "" := by decide
  have hcontracts : wk.contracts = some "S\nf\n\nS\ng" := rfl
  have hquiet : w.settings.verbose = false := rfl
  have hprompt : Effect.readText (wk.conversation.promptDir ++ "harnesses.txt") w = .ok "h" w :=
    Effect.readText_eq_ok_iff.2 ⟨"h", by decide +kernel, by decide +kernel, rfl⟩
  obtain ⟨intro, answers, rest, text, v, -, hlen, hrun, -, htext⟩ :=
    draftHarnesses_assembles hfile hcontracts (by decide)
      (fun h => absurd (hquiet.symm.trans h) Bool.false_ne_true) hprompt hscript
  refine ⟨answers, text, _, v, hlen, hrun, htext, ?_⟩
  have heval : (draftHarnesses.runOn wk w).1.toOption =
      some "#[cfg(kani)] mod verify \x7buse super::*;\n\nab\x7d" := by decide +kernel
  rw [hrun] at heval
  exact Option.some.inj heval

/-- Of a fence with four backticks the first one is taken for code. -/
theorem draftHarnesses_fourth_backtick :
    let wk := harnessing "f" ["ok", "```rust\nab````rust\n"]
    let w := World.ofFiles [("prompts/harnesses.txt", "h")]
    (draftHarnesses.runOn wk w).1.toOption =
        some "#[cfg(kani)] mod verify \x7buse super::*;\n\nab`\x7d" ∧
      firstField "```" "ab````rust\n".toList = "ab".toList := by
  decide +kernel

end Covenant.Worker
