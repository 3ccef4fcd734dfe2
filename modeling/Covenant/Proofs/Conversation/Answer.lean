import Covenant.Proofs.Conversation.Outcome

/-!
# Requests that are answered

Whether a response is taken depends on the response alone, and so does what it comes to: an
`Answer` (`exists_answer`). A client that has an answer to give is asked with one request
(`ask_of_next`), and a dialogue is one such request after the other.
-/

namespace Covenant

/-- What a response that is taken comes to: its text, and the message that is added, unless the
response is empty. -/
structure Answer where
  text : String
  message : Option Datum

/-- The messages that the answer adds. -/
def Answer.messages (a : Answer) : List Message := a.message.toList.map .reply

/-! ## Operations that do not depend on the world -/

/-- The operation gives the same value, or is stopped for the same reason, in every world, and
changes nothing. -/
def Effect.Unmoved {α : Type} (e : Effect α) : Prop :=
  (∃ a, ∀ w, e w = .ok a w) ∨ ∃ x, ∀ w, e w = .error x w

namespace Effect

variable {α β : Type}

theorem unmoved_pure (a : α) : Unmoved (pure a) := .inl ⟨a, fun _ => rfl⟩

theorem unmoved_fail (f : Fault) : Unmoved (fail f : Effect α) := .inr ⟨.fault f, fun _ => rfl⟩

theorem Unmoved.bind {e : Effect α} {f : α → Effect β} (he : Unmoved e)
    (hf : ∀ a, Unmoved (f a)) : Unmoved (e >>= f) := by
  obtain ⟨a, ha⟩ | ⟨x, hx⟩ := he
  · obtain ⟨b, hb⟩ | ⟨x, hx⟩ := hf a
    · exact .inl ⟨b, fun w => (bind_of_ok (ha w) f).trans (hb w)⟩
    · exact .inr ⟨x, fun w => (bind_of_ok (ha w) f).trans (hx w)⟩
  · exact .inr ⟨x, fun w => bind_of_error (hx w)⟩

theorem Unmoved.ite {p : Prop} [Decidable p] {e e' : Effect α} (h : Unmoved e) (h' : Unmoved e') :
    Unmoved (if p then e else e') := by
  by_cases hp : p
  · rwa [if_pos hp]
  · rwa [if_neg hp]

end Effect

theorem Act.bind_of_ok {σ α β : Type} {x : Act σ α} {a : α} {s t : Scene σ} (h : x s = .ok a t)
    (f : α → Act σ β) : (x >>= f) s = f a t := by
  show EStateM.bind x f s = _
  rw [EStateM.bind, h]

namespace Conversation

open Effect

theorem unmoved_field (d : Datum) (name : String) : Unmoved (field d name) := by
  cases d with
  | record fields =>
    unfold field
    cases hv : fields.lookup name with
    | none => simpa only [hv] using unmoved_fail _
    | some v => simpa only [hv] using unmoved_pure v
  | _ => exact unmoved_fail _

theorem unmoved_isEmptyContent (content : Datum) : Unmoved (isEmptyContent content) := by
  cases content with
  | list items | record fields | text s => exact unmoved_pure _
  | _ => exact unmoved_fail _

theorem unmoved_textOfPart (part : Datum) : Unmoved (textOfPart part) := by
  cases part with
  | record fields =>
    unfold textOfPart
    cases hv : fields.lookup "text" with
    | none => simpa only [hv] using unmoved_pure ""
    | some v =>
      cases v with
      | text s => simpa only [hv] using unmoved_pure s
      | _ => simpa only [hv] using unmoved_fail _
  | text s => exact (unmoved_fail _).ite (unmoved_pure _)
  | list items => exact (unmoved_fail _).ite (unmoved_pure _)
  | _ => exact unmoved_fail _

theorem unmoved_textOfParts (parts : List Datum) : Unmoved (textOfParts parts) := by
  induction parts with
  | nil => exact unmoved_pure _
  | cons part parts ih =>
    exact (unmoved_textOfPart part).bind fun s => ih.bind fun t => unmoved_pure (s ++ t)

theorem unmoved_textOfContent (content : Datum) : Unmoved (textOfContent content) := by
  cases content with
  | list items => exact unmoved_textOfParts items
  | record fields => exact unmoved_fail _
  | _ => exact unmoved_pure _

/-! ## Responses that are taken -/

/-- The operation gives the answer, whatever the conversation and the world. -/
def Gives (act : Act Conversation String) (a : Answer) : Prop :=
  ∀ c w, act ⟨c, w⟩ = .ok a.text ⟨{ c with messages := c.messages ++ a.messages }, w⟩

/-- The operation gives an answer, or is stopped, whatever the conversation and the world. -/
def Unvarying (act : Act Conversation String) : Prop :=
  (∃ a, Gives act a) ∨ ∀ c w, ∃ x s, act ⟨c, w⟩ = .error x s

theorem Unvarying.lift_bind {α : Type} {e : Effect α} {f : α → Act Conversation String}
    (he : Unmoved e) (hf : ∀ a, Unvarying (f a)) : Unvarying (Act.lift e >>= f) := by
  obtain ⟨a, ha⟩ | ⟨x, hx⟩ := he
  · have hstep : ∀ c w, (Act.lift e >>= f) ⟨c, w⟩ = f a ⟨c, w⟩ := fun c w =>
      lift_bind_of_ok (ha w) f
    obtain ⟨b, hb⟩ | hstop := hf a
    · exact .inl ⟨b, fun c w => (hstep c w).trans (hb c w)⟩
    · refine .inr fun c w => ?_
      rw [hstep]
      exact hstop c w
  · refine .inr fun c w => ⟨x, ⟨c, w⟩, ?_⟩
    show EStateM.bind (Act.lift e) f ⟨c, w⟩ = _
    rw [EStateM.bind, Act.lift, hx]

theorem unvarying_receive (body : Datum) : Unvarying (receive body) := by
  refine .lift_bind (unmoved_field body "output") fun output =>
    .lift_bind (unmoved_field output "message") fun message =>
    .lift_bind (unmoved_field message "content") fun content =>
    .lift_bind (unmoved_isEmptyContent content) fun empty => ?_
  cases empty with
  | true =>
    refine .inl ⟨⟨"", none⟩, fun c w => ?_⟩
    show EStateM.Result.ok "" (⟨c, w⟩ : Scene Conversation) = _
    simp [Answer.messages]
  | false =>
    have hkeep : ∀ (c : Conversation) (w : World),
        (Act.modifyFocus (fun c : Conversation => c.push (.reply message)) >>= fun _ =>
          Act.lift (textOfContent content)) ⟨c, w⟩ =
        Act.lift (textOfContent content) ⟨c.push (.reply message), w⟩ := fun _ _ => rfl
    obtain ⟨text, htext⟩ | ⟨x, hx⟩ := unmoved_textOfContent content
    · refine .inl ⟨⟨text, some message⟩, fun c w => (hkeep c w).trans ?_⟩
      rw [Act.lift, htext]
      rfl
    · refine .inr fun c w => ⟨x, ⟨c.push (.reply message), w⟩, (hkeep c w).trans ?_⟩
      rw [Act.lift, hx]

/-- A response that is taken once always comes to the same answer. -/
theorem exists_answer {body : Datum} {text : String} {s t : Scene Conversation}
    (h : receive body s = .ok text t) : ∃ a, Gives (receive body) a := by
  obtain ha | hstop := unvarying_receive body
  · exact ha
  · obtain ⟨x, u, hx⟩ := hstop s.focus s.world
    cases h.symm.trans hx

end Conversation

/-! ## Clients that answer -/

namespace Script

open Conversation

/-- The client's next reply comes to the answer, and it has `rest` left. -/
inductive Next : Script → Answer → Script → Prop
  | response {body : Datum} {a : Answer} {rest : Script} (h : Gives (receive body) a) :
    Next (.response body :: rest) a rest
  | always {body : Datum} {a : Answer} {rest : Script} (h : Gives (receive body) a) :
    Next (.always body :: rest) a (.always body :: rest)

/-- The client's next replies come to these answers, and it has `rest` left. -/
inductive Answers : Script → List Answer → Script → Prop
  | nil (script : Script) : Answers script [] script
  | cons {script next rest : Script} {a : Answer} {answers : List Answer}
    (head : Next script a next) (tail : Answers next answers rest) :
    Answers script (a :: answers) rest

/-- The client's next `n` replies are responses that are taken. -/
inductive Succeeds : Script → Nat → Prop
  | zero (script : Script) : Succeeds script 0
  | response {body : Datum} {text : String} {s t : Scene Conversation} {rest : Script} {n : Nat}
    (head : receive body s = .ok text t) (tail : Succeeds rest n) :
    Succeeds (.response body :: rest) (n + 1)
  | always {body : Datum} {text : String} {s t : Scene Conversation} {rest : Script} (n : Nat)
    (head : receive body s = .ok text t) : Succeeds (.always body :: rest) n

theorem Next.answers_replicate {script : Script} {a : Answer} (h : Next script a script) (n : Nat) :
    Answers script (List.replicate n a) script := by
  induction n with
  | zero => exact .nil script
  | succ n ih => exact .cons h ih

theorem Succeeds.exists_answers {script : Script} {n : Nat} (h : Succeeds script n) :
    ∃ answers rest, Answers script answers rest ∧ answers.length = n := by
  induction h with
  | zero script => exact ⟨[], script, .nil script, rfl⟩
  | response head tail ih =>
    obtain ⟨a, ha⟩ := exists_answer head
    obtain ⟨answers, rest, htail, hlen⟩ := ih
    exact ⟨a :: answers, rest, .cons (.response ha) htail, congrArg (· + 1) hlen⟩
  | always n head =>
    obtain ⟨a, ha⟩ := exists_answer head
    exact ⟨_, _, (Next.always ha).answers_replicate n, List.length_replicate ..⟩

end Script

namespace Conversation

variable {c : Conversation} {a : Answer} {rest : Script}

/-- A client that has an answer to give is asked once. -/
theorem ask_of_next (h : Script.Next c.script a rest) (hne : c.messages ≠ []) (w : World) :
    ask ⟨c, w⟩ = .ok a.text
      ⟨{ c with messages := c.messages ++ a.messages, script := rest }, w.noting c.request⟩ := by
  show exchange c.script false ⟨c, w⟩ = _
  generalize hscript : c.script = script at h
  cases h with
  | response ha => exact (asking_of_ne hne _ w).trans (ha { c with script := rest } _)
  | always ha =>
    refine (asking_of_ne hne _ w).trans ((ha c _).trans ?_)
    rw [← hscript]

theorem tell_apply {text : String} (h : text ≠ "") (c : Conversation) (w : World) :
    tell text ⟨c, w⟩ = .ok () ⟨c.push (.user [.text text]), w⟩ := by
  rw [tell, tellBoth, if_pos (bne_iff_ne.2 h)]
  rfl

theorem tellPrompt_apply {file prompt : String} {w : World} (h : file ≠ "")
    (hread : Effect.readText (c.promptDir ++ file) w = .ok prompt w) :
    tellPrompt file ⟨c, w⟩ = .ok () ⟨c.push (.user [.text prompt]), w⟩ := by
  rw [tellPrompt, tellBoth, if_pos (bne_iff_ne.2 h)]
  exact lift_bind_of_ok hread _

/-! ## Dialogues -/

/-- A request with these messages. -/
def sending (c : Conversation) (messages : List Message) : Event :=
  .request c.model c.system messages c.mark

/-- The messages that are sent in a dialogue: in each round a message is added to those before it
and all are sent, then the answer is added. -/
def dialogue (before : List Message) : List (Message × Answer) → List (List Message)
  | [] => []
  | (m, a) :: rounds => (before ++ [m]) :: dialogue (before ++ m :: a.messages) rounds

/-- The messages that a dialogue adds. -/
def transcript (rounds : List (Message × Answer)) : List Message :=
  rounds.flatMap fun round => round.1 :: round.2.messages

/-- The conversation after a dialogue, with a client that has `rest` left. -/
def heard (c : Conversation) (rounds : List (Message × Answer)) (rest : Script) : Conversation :=
  { c with messages := c.messages ++ transcript rounds, script := rest }

@[simp]
theorem heard_nil (c : Conversation) : c.heard [] c.script = c := by
  simp [heard, transcript]

theorem messages_heard_one (c : Conversation) (m : Message) (a : Answer) (rest : Script) :
    (c.heard [(m, a)] rest).messages = c.messages ++ m :: a.messages := by
  simp [heard, transcript]

theorem heard_cons (c : Conversation) (m : Message) (a : Answer) (next : Script)
    (rounds : List (Message × Answer)) (rest : Script) :
    (c.heard [(m, a)] next).heard rounds rest = c.heard ((m, a) :: rounds) rest := by
  simp [heard, transcript]

/-- One round: after the message is added, the client is asked once. -/
theorem ask_push (h : Script.Next c.script a rest) (m : Message) (w : World) :
    ask ⟨c.push m, w⟩ = .ok a.text
      ⟨c.heard [(m, a)] rest, w.noting (c.sending (c.messages ++ [m]))⟩ := by
  have hnext : Script.Next (c.push m).script a rest := h
  rw [ask_of_next hnext (by simp)]
  simp [push, heard, transcript, sending, request]

end Conversation

end Covenant
