import Covenant.Proofs.Conversation.Exchange

/-!
# The attached file

A conversation has at most one message with a document, and it is the marked one. Both ways of
cutting a conversation down keep that message, and dropping the marked message takes the document
out. The replies are those of an assistant, so no reply counts as a message with a document.
-/

namespace Covenant

/-- Whether the value is this text. -/
def Datum.isText (s : String) : Datum → Bool
  | .text t => t == s
  | _ => false

/-- Whether the message has this role. -/
def Datum.hasRole (role : String) (message : Datum) : Bool :=
  (message.field? "role").any (Datum.isText role)

/-- Whether a part of the message's content is a document. -/
def Datum.hasDocument (message : Datum) : Bool :=
  match message.field? "content" with
  | some (.list items) => items.any fun i => (i.field? "document").isSome
  | _ => false

/-- Whether the part is a document. -/
def Part.isDocument : Part → Bool
  | .text _ => false
  | .document _ _ => true

/-- Whether this is a message of the user with a document. -/
def Message.isAttachment : Message → Bool
  | .user parts => parts.any Part.isDocument
  | .reply body => body.hasRole "user" && body.hasDocument

/-- Whether the message of a response, if there is one, has the role of the assistant. -/
def Reply.isByAssistant (r : Reply) : Bool := r.message?.all (·.hasRole "assistant")

theorem Message.isAttachment_reply {m : Datum} (h : m.hasRole "assistant" = true) :
    (Message.reply m).isAttachment = false := by
  unfold Datum.hasRole at h
  show ((m.field? "role").any (Datum.isText "user") && m.hasDocument) = false
  cases hr : m.field? "role" with
  | none =>
    rw [hr] at h
    cases h
  | some d =>
    rw [hr] at h
    cases d with
    | text s =>
      have hs : s = "assistant" := by simpa [Datum.isText] using h
      subst hs
      rfl
    | _ => cases h

/-- The message with number `mark` has a text and this document, and no other message of the user
has a document. -/
def Attaches (name bytes : String) (messages : List Message) (mark : Int) : Prop :=
  ∃ front t back, messages = front ++ .user [.text t, .document name bytes] :: back ∧
    mark = (front.length : Int) ∧ ∀ m ∈ front ++ back, m.isAttachment = false

namespace Conversation

/-- The replies that are left are those of an assistant. -/
def Assisted (c : Conversation) : Prop := ∀ r ∈ c.script, r.isByAssistant = true

/-- No message has a document, and none is marked. -/
def Bare (c : Conversation) : Prop := c.mark = -1 ∧ ∀ m ∈ c.messages, m.isAttachment = false

/-- The conversation is with an assistant, and its marked message alone has a document, this one. -/
structure Shows (name bytes : String) (c : Conversation) : Prop where
  assisted : c.Assisted
  attaches : Attaches name bytes c.messages c.mark

/-- The conversation is with an assistant, and has no document. -/
structure Clear (c : Conversation) : Prop where
  assisted : c.Assisted
  bare : c.Bare

/-- The conversation is with an assistant, and has no document or the marked one. -/
def Settled (c : Conversation) : Prop := c.Clear ∨ ∃ name bytes, c.Shows name bytes

section

variable {name bytes : String} {c c' : Conversation} {x : Message} {m : Datum}

theorem script_keepMarkedOnly (c : Conversation) : c.keepMarkedOnly.script = c.script := by
  unfold keepMarkedOnly
  cases c.isMarked with
  | true => exact script_dropBeforeMark c
  | false => rfl

theorem Clear.isMarked (h : c.Clear) : c.isMarked = false := by
  rw [Conversation.isMarked, h.bare.1]
  rfl

theorem Clear.push (h : c.Clear) (hx : x.isAttachment = false) : (c.push x).Clear := by
  refine ⟨h.assisted, h.bare.1, fun m hm => ?_⟩
  rcases List.mem_append.1 hm with hm | hm
  · exact h.bare.2 m hm
  · rw [List.mem_singleton.1 hm]
    exact hx

theorem Shows.push (h : c.Shows name bytes) (hx : x.isAttachment = false) :
    (c.push x).Shows name bytes := by
  obtain ⟨front, t, back, hm, hk, hno⟩ := h.attaches
  have hpush := MarkedAt.push ⟨hm, hk⟩ x
  refine ⟨h.assisted, front, t, back ++ [x], hpush.messages, hpush.mark, fun m hmem => ?_⟩
  rw [← List.append_assoc] at hmem
  rcases List.mem_append.1 hmem with hmem | hmem
  · exact hno m hmem
  · rw [List.mem_singleton.1 hmem]
    exact hx

theorem Shows.dropBeforeMark (h : c.Shows name bytes) : c.dropBeforeMark.Shows name bytes := by
  obtain ⟨front, t, back, hm, hk, hno⟩ := h.attaches
  have hdrop := MarkedAt.dropBeforeMark ⟨hm, hk⟩
  refine ⟨fun r hr => h.assisted r (by rwa [script_dropBeforeMark] at hr), [], t, back,
    hdrop.messages, hdrop.mark, fun m hmem => ?_⟩
  exact hno m (List.mem_append_right front hmem)

theorem Shows.keepMarkedOnly (h : c.Shows name bytes) : c.keepMarkedOnly.Shows name bytes := by
  obtain ⟨front, t, back, hm, hk, hno⟩ := h.attaches
  have hkeep := MarkedAt.keepMarkedOnly ⟨hm, hk⟩
  refine ⟨fun r hr => h.assisted r (by rwa [script_keepMarkedOnly] at hr), [], t, [],
    hkeep.messages, hkeep.mark, fun m hmem => ?_⟩
  simp at hmem

/-- Dropping the marked message and those after it takes the document out. -/
theorem Shows.dropFromMark (h : c.Shows name bytes) : c.dropFromMark.Clear := by
  obtain ⟨front, t, back, hm, hk, hno⟩ := h.attaches
  rw [MarkedAt.dropFromMark ⟨hm, hk⟩]
  exact ⟨h.assisted, rfl, fun m hmem => hno m (List.mem_append_left back hmem)⟩

/-- Dropping the marked message leaves no document. -/
theorem Settled.withoutMarked (h : c.Settled) (hc : c.withoutMarked = .ok c') : c'.Clear := by
  rcases h with h | ⟨name, bytes, h⟩
  · rw [Conversation.withoutMarked, h.isMarked] at hc
    obtain rfl := Except.ok.inj hc
    exact h
  · obtain ⟨front, t, back, hm, hk, hno⟩ := h.attaches
    rw [MarkedAt.withoutMarked ⟨hm, hk⟩ hc]
    exact ⟨h.assisted, rfl, hno⟩

/-- A document that is added where there is none, and marked. -/
theorem Clear.attach (h : c.Clear) (t : String) :
    (c.push (.user [.text t, .document name bytes])).markLast.Shows name bytes := by
  have hmark := markedAt_markLast c (.user [.text t, .document name bytes])
  refine ⟨h.assisted, c.messages, t, [], hmark.messages, hmark.mark, fun m hm => ?_⟩
  rw [List.append_nil] at hm
  exact h.bare.2 m hm

theorem Assisted.tail (h : c.Assisted) :
    Assisted { c with script := c.script.tail } := fun r hr => h r (List.mem_of_mem_tail hr)

theorem Assisted.hasRole (h : c.Assisted) {r : Reply} (hr : r ∈ c.script)
    (hm : r.message? = some m) : m.hasRole "assistant" = true := by
  have hr := h r hr
  rwa [Reply.isByAssistant, hm] at hr

end

/-- An exchange keeps the document. -/
theorem stable_shows (name bytes : String) :
    Stable (fun m => m.hasRole "assistant" = true) (Shows name bytes) where
  replies h _ hr _ hm := h.assisted.hasRole hr hm
  next h := ⟨h.assisted.tail, h.attaches⟩
  shorten h := h.dropBeforeMark
  system h _ := ⟨h.assisted, h.attaches⟩
  tell h _ := h.push rfl
  hear h hm := h.push (Message.isAttachment_reply hm)
  keep h := h.keepMarkedOnly

/-- An exchange without a document adds none. -/
theorem stable_clear : Stable (fun m => m.hasRole "assistant" = true) Clear where
  replies h _ hr _ hm := h.assisted.hasRole hr hm
  next h := ⟨h.assisted.tail, h.bare⟩
  shorten {c} h := by
    rw [dropBeforeMark, h.isMarked]
    exact h
  system h _ := ⟨h.assisted, h.bare⟩
  tell h _ := h.push rfl
  hear h hm := h.push (Message.isAttachment_reply hm)
  keep {c} h := by
    rw [keepMarkedOnly, h.isMarked]
    exact h

theorem stable_settled : Stable (fun m => m.hasRole "assistant" = true) Settled where
  replies h := h.elim stable_clear.replies fun ⟨_, _, h⟩ => (stable_shows _ _).replies h
  next h := h.imp stable_clear.next fun ⟨_, _, h⟩ => ⟨_, _, (stable_shows _ _).next h⟩
  shorten h := h.imp stable_clear.shorten fun ⟨_, _, h⟩ => ⟨_, _, h.dropBeforeMark⟩
  system h t := h.imp (stable_clear.system · t)
    fun ⟨_, _, h⟩ => ⟨_, _, (stable_shows _ _).system h t⟩
  tell h t := h.imp (stable_clear.tell · t) fun ⟨_, _, h⟩ => ⟨_, _, (stable_shows _ _).tell h t⟩
  hear h hm := h.imp (stable_clear.hear · hm) fun ⟨_, _, h⟩ => ⟨_, _, (stable_shows _ _).hear h hm⟩
  keep h := h.imp stable_clear.keep fun ⟨_, _, h⟩ => ⟨_, _, h.keepMarkedOnly⟩

/-- However an exchange is stopped, the next document can be attached. -/
theorem settled_of_stopped {c : Conversation}
    (h : Stopped (fun m => m.hasRole "assistant" = true) Settled c) : c.Settled := by
  cases h with
  | answered h => exact stable_settled.answered h
  | @dropped c h =>
    rcases h with h | ⟨name, bytes, h⟩
    · rw [dropFromMark, h.isMarked]
      exact .inl h
    · exact .inl h.dropFromMark

section

variable {st : Settings} {P : Event → Prop}

theorem leads_dropMarked :
    dropMarked.Leads st P Settled (fun _ => Clear) Settled := by
  refine .focus_bind fun c h => ?_
  cases hc : c.withoutMarked with
  | ok c => exact Act.leads_modifyFocus fun _ _ => h.withoutMarked hc
  | error f => exact fun _ _ hs => ⟨hs, .refl _⟩

/-- A file that can be read is attached as it is, and otherwise nothing is changed. -/
theorem ends_attachWith (text path : String) (c : Conversation) (w : World) :
    Ends (attachWith text path) ⟨c, w⟩
      (fun _ t => ∃ content, w.disk.load path = .ok content ∧ t = ⟨c.push (.user [.text text,
        .document (Path.stem path) (Text.base64 content.bytes)]), w⟩)
      fun _ t => t = ⟨c, w⟩ := by
  have hdocument : Ends (documentOf path) w
      (fun part v => v = w ∧ ∃ content, w.disk.load path = .ok content ∧
        part = .document (Path.stem path) (Text.base64 content.bytes)) fun _ v => v = w := by
    refine ends_bind.2 (ends_bind.2 ?_)
    show Ends (Effect.ofDisk (w.disk.load path)) w _ _
    cases w.disk.load path with
    | ok content => exact ⟨rfl, content, rfl, rfl⟩
    | error f => exact rfl
  refine ends_bind.2 (Act.ends_lift.2 (hdocument.mono (fun part v hv => ?_) fun _ v hv => hv ▸ rfl))
  obtain ⟨rfl, content, hcontent, rfl⟩ := hv
  exact ⟨content, hcontent, rfl⟩

end

end Conversation

end Covenant
