import Covenant.Proofs.Conversation.Exchange
import Mathlib.Data.List.Induction

/-!
# Where the mark is

A conversation is used by one operation after the other, each in whatever world and with whatever
replies, and it goes on from where an operation was stopped. Messages are added at the end only, and
every cut is made at the mark: what is left of the messages up to the mark is an end of what they
were when the mark was set (`Anchored`). So a mark is on the message that was the last one when the
last message was marked (`mark_stays`).
-/

namespace Covenant.Conversation

/-- An operation on a conversation. -/
inductive Operation
  | tellBoth (text file : String)
  | tell (text : String)
  | tellPrompt (file : String)
  | attach (path : String)
  | attachWith (text path : String)
  | setSystem (text file : String)
  | markLast
  | dropMarked
  | dropFromMark
  | dropBeforeMark
  | keepMarkedOnly
  | ask
  | greet
  deriving DecidableEq, Repr

/-- What the operation does. -/
def Operation.act : Operation → Act Conversation Unit
  | .tellBoth text file => Conversation.tellBoth text file
  | .tell text => Conversation.tell text
  | .tellPrompt file => Conversation.tellPrompt file
  | .attach path => Conversation.attach path
  | .attachWith text path => Conversation.attachWith text path
  | .setSystem text file => Conversation.setSystem text file
  | .markLast => Act.modifyFocus Conversation.markLast
  | .dropMarked => Conversation.dropMarked
  | .dropFromMark => Act.modifyFocus Conversation.dropFromMark
  | .dropBeforeMark => Act.modifyFocus Conversation.dropBeforeMark
  | .keepMarkedOnly => Act.modifyFocus Conversation.keepMarkedOnly
  | .ask => do let _ ← Conversation.ask
  | .greet => do let _ ← Conversation.greet

/-- A use of a conversation: an operation, with the replies that the client has from then on and the
world that it finds. -/
structure Use where
  operation : Operation
  script : Script
  world : World

/-- The conversation after the use, whether the operation returned or was stopped. -/
def Use.leaves (u : Use) (c : Conversation) : Conversation :=
  (u.operation.act.runOn { c with script := u.script } u.world).2.1

/-- The conversation after these uses. -/
def after (c : Conversation) (uses : List Use) : Conversation :=
  uses.foldl (fun c u => u.leaves c) c

theorem after_concat (c : Conversation) (uses : List Use) (u : Use) :
    c.after (uses ++ [u]) = u.leaves (c.after uses) := by
  simp [after]

/-! ## What is left of the marked messages -/

/-- Up to the mark, if there is one, the messages are an end of `marked`. -/
def Anchored (marked : List Message) (c : Conversation) : Prop :=
  c.mark = -1 ∨ ∃ front m back, MarkedAt front m back c ∧ front ++ [m] <:+ marked

section

variable {marked : List Message} {c c' : Conversation}

theorem isMarked_eq_false (h : c.mark = -1) : c.isMarked = false := by
  rw [isMarked, h]
  rfl

theorem Anchored.push (h : Anchored marked c) (x : Message) : Anchored marked (c.push x) := by
  rcases h with h | ⟨front, m, back, h, hend⟩
  · exact .inl h
  · exact .inr ⟨front, m, back ++ [x], h.push x, hend⟩

theorem Anchored.dropBeforeMark (h : Anchored marked c) : Anchored marked c.dropBeforeMark := by
  rcases h with h | ⟨front, m, back, h, hend⟩
  · rw [Conversation.dropBeforeMark, isMarked_eq_false h]
    exact .inl h
  · exact .inr ⟨[], m, back, h.dropBeforeMark, (List.suffix_append front [m]).trans hend⟩

theorem Anchored.keepMarkedOnly (h : Anchored marked c) : Anchored marked c.keepMarkedOnly := by
  rcases h with h | ⟨front, m, back, h, hend⟩
  · rw [Conversation.keepMarkedOnly, isMarked_eq_false h]
    exact .inl h
  · exact .inr ⟨[], m, [], h.keepMarkedOnly, (List.suffix_append front [m]).trans hend⟩

theorem Anchored.dropFromMark (h : Anchored marked c) : Anchored marked c.dropFromMark := by
  rcases h with h | ⟨front, m, back, h, -⟩
  · rw [Conversation.dropFromMark, isMarked_eq_false h]
    exact .inl h
  · rw [h.dropFromMark]
    exact .inl rfl

theorem Anchored.withoutMarked (h : Anchored marked c) (hc : c.withoutMarked = .ok c') :
    Anchored marked c' := by
  rcases h with h | ⟨front, m, back, h, -⟩
  · rw [Conversation.withoutMarked, isMarked_eq_false h] at hc
    obtain rfl := Except.ok.inj hc
    exact .inl h
  · rw [h.withoutMarked hc]
    exact .inl rfl

theorem anchored_markLast (c : Conversation) : Anchored c.messages c.markLast := by
  rcases List.eq_nil_or_concat c.messages with h | ⟨front, m, h⟩
  · refine .inl ?_
    rw [markLast, h]
    rfl
  · rw [List.concat_eq_append] at h
    refine .inr ⟨front, m, [], ⟨h, ?_⟩, [], h.symm⟩
    simp only [markLast, h, List.length_append, List.length_singleton]
    omega

/-- The system texts and the replies that are left have no part in it. -/
theorem Anchored.congr (h : Anchored marked c) (hm : c'.messages = c.messages)
    (hk : c'.mark = c.mark) : Anchored marked c' := by
  rcases h with h | ⟨front, m, back, h, hend⟩
  · exact .inl (hk.trans h)
  · exact .inr ⟨front, m, back, ⟨hm.trans h.messages, hk.trans h.mark⟩, hend⟩

theorem stable_anchored (marked : List Message) : Stable (fun _ => True) (Anchored marked) where
  replies _ _ _ _ _ := trivial
  next h := h.congr rfl rfl
  shorten h := h.dropBeforeMark
  system h _ := h.congr rfl rfl
  tell h _ := h.push _
  hear h _ := h.push _
  keep h := h.keepMarkedOnly

theorem anchored_of_stopped (h : Stopped (fun _ => True) (Anchored marked) c) :
    Anchored marked c := by
  cases h with
  | answered h => exact (stable_anchored marked).answered h
  | dropped h => exact h.dropFromMark

end

/-! ## One operation -/

section

variable {st : Settings} {P : Event → Prop} {marked : List Message}

theorem leads_attach_anchored (parts : Part → List Part) (path : String) :
    (do let document ← documentOf path; add (parts document) : Act Conversation Unit).Leads st P
      (Anchored marked) (fun _ => Anchored marked) (Anchored marked) := by
  have hdocument : (documentOf path).Leads P :=
    ((Effect.leads_openFile path).bind fun _ => .pure _).bind fun _ => .pure _
  refine .bind (K := fun _ => Anchored marked)
    (Act.leads_lift hdocument (fun _ _ => id) fun _ => id) fun document => ?_
  exact Act.leads_modifyFocus fun _ h => h.push _

theorem leads_dropMarked_anchored :
    dropMarked.Leads st P (Anchored marked) (fun _ => Anchored marked) (Anchored marked) := by
  refine .focus_bind fun c h => ?_
  cases hc : c.withoutMarked with
  | ok c => exact Act.leads_modifyFocus fun _ _ => h.withoutMarked hc
  | error f => exact Act.leads_lift (Effect.leads_fail _) (fun _ _ => id) fun _ => id

/-- Every operation but marking keeps what is left of the marked messages. -/
theorem Operation.leads_act {op : Operation} (hop : op ≠ .markLast) :
    op.act.Leads st (Said (Anchored marked)) (Anchored marked) (fun _ => Anchored marked)
      (Anchored marked) := by
  have hI := stable_anchored marked
  have hstop {α : Type} {act : Act Conversation α}
      (h : act.Leads st (Said (Anchored marked)) (Anchored marked) (fun _ => Anchored marked)
        (Stopped (fun _ => True) (Anchored marked))) :
      act.Leads st (Said (Anchored marked)) (Anchored marked) (fun _ => Anchored marked)
        (Anchored marked) :=
    h.mono (fun _ => id) (fun _ => id) (fun _ _ => id) fun _ => anchored_of_stopped
  cases op with
  | tellBoth text file => exact hstop (hI.tellBoth text file)
  | tell text => exact hstop (hI.tellBoth text "")
  | tellPrompt file => exact hstop (hI.tellBoth "" file)
  | attach path => exact leads_attach_anchored (fun document => [document]) path
  | attachWith text path =>
    exact leads_attach_anchored (fun document => [.text text, document]) path
  | setSystem text file => exact hstop (hI.setSystem text file)
  | markLast => exact absurd rfl hop
  | dropMarked => exact leads_dropMarked_anchored
  | dropFromMark => exact Act.leads_modifyFocus fun _ h => h.dropFromMark
  | dropBeforeMark => exact Act.leads_modifyFocus fun _ h => h.dropBeforeMark
  | keepMarkedOnly => exact Act.leads_modifyFocus fun _ h => h.keepMarkedOnly
  | ask => exact (hstop hI.ask).bind fun _ => .pure fun _ => id
  | greet => exact (hstop hI.greet).bind fun _ => .pure fun _ => id

theorem Use.anchored {u : Use} (hu : u.operation ≠ .markLast) {c : Conversation}
    (h : Anchored marked c) : Anchored marked (u.leaves c) := by
  have hc : Anchored marked { c with script := u.script } := h.congr rfl rfl
  have hends := Operation.leads_act hu ⟨{ c with script := u.script }, u.world⟩ rfl hc
  exact Act.of_runOn (T := fun c _ => Anchored marked c)
    (hends.mono (fun _ _ h => h.1) fun _ _ h => h.1) rfl

theorem Use.anchored_markLast {u : Use} (hu : u.operation = .markLast) (c : Conversation) :
    Anchored c.messages (u.leaves c) := by
  have hleaves : u.leaves c = Conversation.markLast { c with script := u.script } := by
    rw [Use.leaves, hu]
    rfl
  rw [hleaves]
  exact Conversation.anchored_markLast _

end

/-! ## Any number of operations -/

/-- The last message was marked for the last time after the uses `before`. -/
def LastMarked (before uses : List Use) : Prop :=
  ∃ u later, uses = before ++ u :: later ∧ u.operation = .markLast ∧
    ∀ v ∈ later, v.operation ≠ .markLast

theorem LastMarked.concat {before uses : List Use} {u : Use} (h : LastMarked before uses)
    (hu : u.operation ≠ .markLast) : LastMarked before (uses ++ [u]) := by
  obtain ⟨v, later, rfl, hv, hlater⟩ := h
  refine ⟨v, later ++ [u], by rw [List.append_assoc, List.cons_append], hv, fun x hx => ?_⟩
  rcases List.mem_append.1 hx with hx | hx
  · exact hlater x hx
  · rw [List.mem_singleton.1 hx]
    exact hu

theorem lastMarked_concat {uses : List Use} {u : Use} (hu : u.operation = .markLast) :
    LastMarked uses (uses ++ [u]) :=
  ⟨u, [], rfl, hu, fun _ hv => absurd hv List.not_mem_nil⟩

theorem Anchored.eq_of_nil {c : Conversation} (h : Anchored [] c) : c.mark = -1 := by
  rcases h with h | ⟨front, m, back, -, hend⟩
  · exact h
  · simp at hend

/-- Where the conversation has no mark to begin with, a mark is one that was set, and what is left
up to it is an end of what was there then. -/
theorem anchored_after {c : Conversation} (hc : c.mark = -1) (uses : List Use) :
    (c.after uses).mark = -1 ∨
      ∃ before, LastMarked before uses ∧ Anchored (c.after before).messages (c.after uses) := by
  induction uses using List.reverseRecOn with
  | nil => exact .inl hc
  | append_singleton uses u ih =>
    rw [after_concat]
    by_cases hu : u.operation = .markLast
    · exact .inr ⟨uses, lastMarked_concat hu, Use.anchored_markLast hu _⟩
    · rcases ih with ih | ⟨before, hbefore, hanchored⟩
      · exact .inl (Use.anchored hu (.inl ih)).eq_of_nil
      · exact .inr ⟨before, hbefore.concat hu, Use.anchored hu hanchored⟩

/-- However a conversation is used from its start, its mark is none or the number of one of its
messages. The marked message is the one that was the last when the last message was marked for the
last time, and those before it are the ones that were right before it then. -/
theorem mark_stays {model : Entry} {region : Option String} {promptDir : String} {w w' : World}
    {c₀ : Conversation} (hstart : connect model region promptDir w = .ok c₀ w')
    (uses : List Use) {c : Conversation} (hc : c₀.after uses = c) :
    (c.mark = -1 ∨ 0 ≤ c.mark ∧ c.mark < c.messages.length) ∧
      (c.mark ≠ -1 → ∃ before m, LastMarked before uses ∧
        (c₀.after before).messages.getLast? = some m ∧ c.messages[c.mark.toNat]? = some m ∧
        c.messages.take (c.mark.toNat + 1) <:+ (c₀.after before).messages) := by
  have hfresh : c₀.mark = -1 := by
    cases hstart
    rfl
  subst hc
  rcases anchored_after hfresh uses with hnone | ⟨before, hbefore, hnone | hmarked⟩
  · exact ⟨.inl hnone, fun h => absurd hnone h⟩
  · exact ⟨.inl hnone, fun h => absurd hnone h⟩
  · obtain ⟨front, m, back, hat, hend⟩ := hmarked
    rw [hat.mark, hat.messages, Int.toNat_natCast]
    refine ⟨.inr ⟨by omega, ?_⟩, fun _ => ⟨before, m, hbefore, ?_, by simp, ?_⟩⟩
    · rw [List.length_append, List.length_cons]
      omega
    · obtain ⟨gone, hgone⟩ := hend
      rw [← hgone, ← List.append_assoc, List.getLast?_concat]
    · rwa [List.append_cons, List.take_left' (by simp)]

/-- A file is attached and marked after an exchange, the exchange after it is rejected once and
waits once, and a file that is missing is not attached. -/
def shortenedUses : List Use :=
  let w := World.ofFiles [("a.rs", "fn a() \x7b\x7d\n")]
  [⟨.tell "Hi", [], w⟩, ⟨.ask, [.response (Datum.saying "ok")], w⟩,
    ⟨.attachWith "File:" "a.rs", [], w⟩, ⟨.markLast, [], w⟩, ⟨.tell "Look", [], w⟩,
    ⟨.ask, [.refusal "ValidationException" (some "no"), .timeout, .response (Datum.saying "1")], w⟩,
    ⟨.attach "b.rs", [], w⟩]

/-- The attached file is the first message now, and still the marked one. -/
theorem mark_stays_shortened :
    ∃ c₀ c w', connect (.text "m") none "prompts" (World.ofFiles []) = .ok c₀ w' ∧
      c₀.after shortenedUses = c ∧ c.mark = 0 ∧ c.messages.length = 3 ∧
      ∃ before m, LastMarked before shortenedUses ∧
        (c₀.after before).messages.getLast? = some m ∧ c.messages[c.mark.toNat]? = some m ∧
        c.messages.take (c.mark.toNat + 1) <:+ (c₀.after before).messages := by
  obtain ⟨c₀, w', hstart⟩ :
      ∃ c₀ w', connect (.text "m") none "prompts" (World.ofFiles []) = .ok c₀ w' := ⟨_, _, rfl⟩
  have heval : (c₀.after shortenedUses).mark = 0 ∧
      (c₀.after shortenedUses).messages.length = 3 := by
    cases hstart
    decide +kernel
  refine ⟨c₀, _, w', hstart, rfl, heval.1, heval.2, (mark_stays hstart shortenedUses rfl).2 ?_⟩
  rw [heval.1]
  decide

end Covenant.Conversation
