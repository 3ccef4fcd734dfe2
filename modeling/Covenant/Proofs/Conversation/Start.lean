import Covenant.Proofs.Conversation.Mark
import Covenant.Proofs.Workflow.Attachment

/-!
# The first message of a request

A conversation begins with a message of the user, and so does what is left of it from the mark on,
for a file that is attached is marked. But the reply to the file comes right after it. When the
conversation has been cut down to the file and what follows, and the file is dropped for the next
one, that reply is the first message. There is no other way to it: every request begins with a
message of the user, or, if a file was taken on after such a cut, with that reply (`FromUser`).
-/

namespace Covenant

open Conversation

/-- Whether the message has the role of the user. -/
def Message.isByUser : Message → Bool
  | .user _ => true
  | .reply body => body.hasRole "user"

/-! ## Cuts -/

/-- A request of the model began with the marked message, one of the user, and went on with the
reply `m` or had nothing else. -/
def Trimmed (model : Entry) (es : List Event) (m : Datum) : Prop :=
  ∃ system first rest, .request model system (first :: rest) 0 ∈ es ∧ first.isByUser = true ∧
    (rest = [] ∨ ∃ back, rest = .reply m :: back)

/-- There was such a request, and a file was taken on after it. -/
def Outlived (model : Entry) (es : List Event) (m : Datum) : Prop :=
  ∃ before file text after, es = before ++ .take file text :: after ∧ Trimmed model before m

/-- The first message of a request has the role of the user. If it has not, it is a reply, which is
not marked, and a file was taken on after a request that was cut down to what was before it. -/
def FromUser (before : List Event) (e : Event) : Prop :=
  ∀ model system messages mark, e = .request model system messages mark →
    ∃ first rest, messages = first :: rest ∧ (first.isByUser = true ∨
      ∃ m, first = .reply m ∧ m.hasRole "assistant" = true ∧ mark ≠ 0 ∧ Outlived model before m)

section

variable {model : Entry} {es : List Event} {e : Event} {m : Datum}

theorem Trimmed.concat (h : Trimmed model es m) (e : Event) : Trimmed model (es ++ [e]) m := by
  obtain ⟨system, first, rest, hmem, hfirst, hrest⟩ := h
  exact ⟨system, first, rest, List.mem_append_left _ hmem, hfirst, hrest⟩

theorem Outlived.concat (h : Outlived model es m) (e : Event) : Outlived model (es ++ [e]) m := by
  obtain ⟨before, file, text, after, rfl, htrimmed⟩ := h
  exact ⟨before, file, text, after ++ [e], by simp, htrimmed⟩

theorem Trimmed.outlived (h : Trimmed model es m) (file text : String) :
    Outlived model (es ++ [.take file text]) m := ⟨es, file, text, [], rfl, h⟩

theorem Outlived.trimmed (h : Outlived model es m) : Trimmed model es m := by
  obtain ⟨before, file, text, after, rfl, system, first, rest, hmem, hfirst, hrest⟩ := h
  exact ⟨system, first, rest, List.mem_append_left _ hmem, hfirst, hrest⟩

theorem Aside.fromUser (h : Aside e) : FromUser es e := by
  rintro model system messages mark rfl
  cases h

end

/-! ## Conversations -/

namespace Conversation

/-- The first message is one of the user, or an unmarked reply in `S`, and the marked message is one
of the user. The replies are those of an assistant. -/
structure Begins (S : Datum → Prop) (c : Conversation) : Prop where
  assisted : c.Assisted
  replies : ∀ m, .reply m ∈ c.messages → m.hasRole "assistant" = true
  marked : c.mark = -1 ∨ ∃ front m back, MarkedAt front m back c ∧ m.isByUser = true
  first : ∀ x rest, c.messages = x :: rest →
    x.isByUser = true ∨ ∃ m, x = .reply m ∧ c.mark ≠ 0 ∧ S m

/-- A reply that follows a first message that is marked is in `S`. -/
def Owes (S : Datum → Prop) (c : Conversation) : Prop :=
  c.mark = 0 → ∀ x m rest, c.messages = x :: .reply m :: rest → S m

section

variable {S S' : Datum → Prop} {c c' : Conversation}

theorem Begins.mono (h : Begins S c) (hS : ∀ m, S m → S' m) : Begins S' c :=
  ⟨h.assisted, h.replies, h.marked, fun x rest hx => (h.first x rest hx).imp_right
    fun ⟨m, hm, hk, hs⟩ => ⟨m, hm, hk, hS m hs⟩⟩

theorem Owes.mono (h : Owes S c) (hS : ∀ m, S m → S' m) : Owes S' c :=
  fun hk x m rest hm => hS m (h hk x m rest hm)

theorem owes_of_mark (h : c.mark = -1) : Owes S c := by
  intro hk
  rw [h] at hk
  exact absurd hk (by decide)

/-- Only the messages, the mark and the replies that are left count. -/
theorem Begins.congr (h : Begins S c) (hs : c'.Assisted) (hm : c'.messages = c.messages)
    (hk : c'.mark = c.mark) : Begins S c' := by
  refine ⟨hs, hm ▸ h.replies, h.marked.imp hk.trans ?_,
    fun x rest hx => hk ▸ h.first x rest (hm ▸ hx)⟩
  rintro ⟨front, m, back, hat, huser⟩
  exact ⟨front, m, back, ⟨hm.trans hat.messages, hk.trans hat.mark⟩, huser⟩

theorem Owes.congr (h : Owes S c) (hm : c'.messages = c.messages) (hk : c'.mark = c.mark) :
    Owes S c' :=
  fun hk' x m rest hx => h (hk.symm.trans hk') x m rest (hm.symm.trans hx)

/-- What is added at the end leaves the first message, if there is one. -/
theorem Begins.push (h : Begins S c) {x : Message} (hx : c.messages = [] → x.isByUser = true)
    (hreply : ∀ m, x = .reply m → m.hasRole "assistant" = true) : Begins S (c.push x) := by
  refine ⟨h.assisted, fun m hm => ?_, ?_, fun y rest hy => ?_⟩
  · rcases List.mem_append.1 hm with hm | hm
    · exact h.replies m hm
    · exact hreply m (List.mem_singleton.1 hm).symm
  · refine h.marked.imp id ?_
    rintro ⟨front, m, back, hat, huser⟩
    exact ⟨front, m, back ++ [x], hat.push x, huser⟩
  · cases hm : c.messages with
    | nil =>
      rw [messages_push, hm] at hy
      obtain ⟨rfl, -⟩ := List.cons.inj hy
      exact .inl (hx hm)
    | cons z back =>
      rw [messages_push, hm, List.cons_append] at hy
      obtain ⟨rfl, -⟩ := List.cons.inj hy
      exact h.first z back hm

theorem Begins.push_user (h : Begins S c) (parts : List Part) : Begins S (c.push (.user parts)) :=
  h.push (fun _ => rfl) fun _ hm => by cases hm

theorem Owes.push_user (h : Owes S c) (parts : List Part) : Owes S (c.push (.user parts)) := by
  intro hk x m rest hm
  rw [messages_push] at hm
  cases hc : c.messages with
  | nil => simp [hc] at hm
  | cons y back =>
    cases back with
    | nil => simp [hc] at hm
    | cons z back =>
      obtain ⟨rfl, rfl, -⟩ : y = x ∧ z = .reply m ∧ _ := by simpa [hc] using hm
      exact h hk y m back hc

/-- The messages from the mark on begin with the marked one. -/
theorem Begins.dropBeforeMark (h : Begins S c) : Begins S c.dropBeforeMark := by
  rcases h.marked with hk | ⟨front, m, back, hat, huser⟩
  · rw [Conversation.dropBeforeMark, isMarked_eq_false hk]
    exact h
  · have hdrop := hat.dropBeforeMark
    refine ⟨fun r hr => h.assisted r (by rwa [script_dropBeforeMark] at hr), fun r hr => ?_,
      .inr ⟨[], m, back, hdrop, huser⟩, fun x rest hx => .inl ?_⟩
    · rw [hdrop.messages, List.nil_append] at hr
      exact h.replies r (by rw [hat.messages]; exact List.mem_append_right _ hr)
    · obtain ⟨rfl, -⟩ := List.cons.inj (hdrop.messages.symm.trans hx)
      exact huser

theorem Begins.keepMarkedOnly (h : Begins S c) :
    Begins S c.keepMarkedOnly ∧ Owes S' c.keepMarkedOnly := by
  rcases h.marked with hk | ⟨front, m, back, hat, huser⟩
  · rw [Conversation.keepMarkedOnly, isMarked_eq_false hk]
    exact ⟨h, owes_of_mark hk⟩
  · have hkeep := hat.keepMarkedOnly
    refine ⟨⟨fun r hr => h.assisted r (by rwa [script_keepMarkedOnly] at hr), fun r hr => ?_,
      .inr ⟨[], m, [], hkeep, huser⟩, fun x rest hx => .inl ?_⟩, fun _ x r rest hx => ?_⟩
    · rw [hkeep.messages, List.nil_append, List.mem_singleton] at hr
      exact h.replies r (by rw [hat.messages, ← hr]; simp)
    · obtain ⟨rfl, -⟩ := List.cons.inj (hkeep.messages.symm.trans hx)
      exact huser
    · have hone := hkeep.messages.symm.trans hx
      simp at hone

theorem Begins.dropFromMark (h : Begins S c) :
    Begins S c.dropFromMark ∧ Owes S' c.dropFromMark := by
  have hne : (-1 : Int) ≠ 0 := by decide
  rcases h.marked with hk | ⟨front, m, back, hat, huser⟩
  · rw [Conversation.dropFromMark, isMarked_eq_false hk]
    exact ⟨h, owes_of_mark hk⟩
  · rw [hat.dropFromMark]
    refine ⟨⟨h.assisted, fun r hr => ?_, .inl rfl, fun x rest hx => ?_⟩, owes_of_mark rfl⟩
    · exact h.replies r (by rw [hat.messages]; exact List.mem_append_left _ hr)
    · obtain rfl : front = x :: rest := hx
      rcases h.first x _ hat.messages with hx | ⟨m, hm, -, hs⟩
      · exact .inl hx
      · exact .inr ⟨m, hm, hne, hs⟩

/-- Without the marked message, the first one is the one before it, or the one after it. -/
theorem Begins.withoutMarked (h : Begins S c) (ho : Owes S c) (hc : c.withoutMarked = .ok c') :
    Begins S c' ∧ c'.mark = -1 := by
  have hne : (-1 : Int) ≠ 0 := by decide
  rcases h.marked with hk | ⟨front, m, back, hat, -⟩
  · rw [Conversation.withoutMarked, isMarked_eq_false hk] at hc
    obtain rfl := Except.ok.inj hc
    exact ⟨h, hk⟩
  · rw [hat.withoutMarked hc]
    refine ⟨⟨h.assisted, fun r hr => h.replies r ?_, .inl rfl, fun x rest hx => ?_⟩, rfl⟩
    · rw [hat.messages, List.mem_append, List.mem_cons]
      exact (List.mem_append.1 hr).imp_right .inr
    · cases front with
      | nil =>
        obtain rfl : back = x :: rest := hx
        cases x with
        | user parts => exact .inl rfl
        | reply r => exact .inr ⟨r, rfl, hne, ho hat.mark m r rest hat.messages⟩
      | cons y front =>
        obtain ⟨rfl, -⟩ := List.cons.inj hx
        rcases h.first y _ hat.messages with hy | ⟨m, hm, -, hs⟩
        · exact .inl hy
        · exact .inr ⟨m, hm, hne, hs⟩

/-- A message of the user that is added and marked. -/
theorem Begins.attach (h : Begins S c) (parts : List Part) :
    Begins S (c.push (.user parts)).markLast ∧ Owes S' (c.push (.user parts)).markLast := by
  have hat := markedAt_markLast c (.user parts)
  have hpush := h.push_user parts
  refine ⟨⟨h.assisted, hpush.replies, .inr ⟨_, _, _, hat, rfl⟩, fun x rest hx => ?_⟩,
    fun hk x r rest hx => ?_⟩
  · cases hm : c.messages with
    | nil =>
      rw [hat.messages, hm] at hx
      obtain ⟨rfl, -⟩ := List.cons.inj hx
      exact .inl rfl
    | cons y back =>
      refine (hpush.first x rest hx).imp_right fun ⟨m, hxm, _, hs⟩ => ⟨m, hxm, ?_, hs⟩
      rw [hat.mark, hm, List.length_cons]
      omega
  · -- a marked first message is the only one
    have hnil : c.messages = [] := by
      rw [hat.mark] at hk
      exact List.eq_nil_of_length_eq_zero (by omega)
    rw [hat.messages, hnil] at hx
    simp at hx

end

/-! ## Exchanges -/

/-- The conversation after these events: what it may begin with was outlived. -/
def Free (es : List Event) (c : Conversation) : Prop := Begins (Outlived c.model es) c

/-- The conversation was sent as it is. -/
def Asked (es : List Event) (c : Conversation) : Prop :=
  Free es c ∧ c.messages ≠ [] ∧ c.request ∈ es

/-- The conversation between two requests. -/
def Closed (es : List Event) (c : Conversation) : Prop := Free es c ∧ Owes (Trimmed c.model es) c

/-- The conversation when a file was taken on after its last request. -/
def Primed (es : List Event) (c : Conversation) : Prop := Free es c ∧ Owes (Outlived c.model es) c

section

variable {es : List Event} {c : Conversation}

theorem Free.concat (h : Free es c) (e : Event) : Free (es ++ [e]) c :=
  Begins.mono h fun _ hm => hm.concat e

theorem Asked.concat (h : Asked es c) (e : Event) : Asked (es ++ [e]) c :=
  ⟨h.1.concat e, h.2.1, List.mem_append_left _ h.2.2⟩

theorem Closed.concat (h : Closed es c) (e : Event) : Closed (es ++ [e]) c :=
  ⟨h.1.concat e, h.2.mono fun _ hm => hm.concat e⟩

theorem Primed.concat (h : Primed es c) (e : Event) : Primed (es ++ [e]) c :=
  ⟨h.1.concat e, h.2.mono fun _ hm => hm.concat e⟩

theorem Primed.closed (h : Primed es c) : Closed es c := ⟨h.1, h.2.mono fun _ => Outlived.trimmed⟩

theorem Closed.primed (h : Closed es c) (file text : String) :
    Primed (es ++ [.take file text]) c :=
  ⟨h.1.concat _, h.2.mono fun _ hm => hm.outlived file text⟩

theorem model_dropBeforeMark (c : Conversation) : c.dropBeforeMark.model = c.model := by
  unfold Conversation.dropBeforeMark
  cases c.isMarked with
  | true => rfl
  | false => rfl

theorem model_keepMarkedOnly (c : Conversation) : c.keepMarkedOnly.model = c.model := by
  unfold Conversation.keepMarkedOnly
  cases c.isMarked with
  | true => exact model_dropBeforeMark c
  | false => rfl

theorem model_dropFromMark (c : Conversation) : c.dropFromMark.model = c.model := by
  unfold Conversation.dropFromMark
  cases c.isMarked with
  | true => rfl
  | false => rfl

theorem Free.dropBeforeMark (h : Free es c) : Free es c.dropBeforeMark := by
  rw [Free, model_dropBeforeMark]
  exact Begins.dropBeforeMark h

theorem Free.keepMarkedOnly (h : Free es c) : Closed es c.keepMarkedOnly := by
  rw [Closed, Free, model_keepMarkedOnly]
  exact Begins.keepMarkedOnly h

theorem Free.dropFromMark (h : Free es c) : Closed es c.dropFromMark := by
  rw [Closed, Free, model_dropFromMark]
  exact Begins.dropFromMark h

/-- What was sent with the mark at its first message is a cut. -/
theorem Asked.closed (h : Asked es c) : Closed es c := by
  refine ⟨h.1, fun hk x m rest hm => ⟨c.system, x, .reply m :: rest, ?_, ?_, .inr ⟨rest, rfl⟩⟩⟩
  · rw [← hm, ← hk]
    exact h.2.2
  · exact (h.1.first x _ hm).resolve_right fun ⟨_, _, hne, _⟩ => hne hk

/-- A reply to a message alone follows a cut. -/
theorem Asked.hear (h : Asked es c) {m : Datum} (hm : m.hasRole "assistant" = true) :
    Closed es (c.push (.reply m)) := by
  refine ⟨h.1.push (fun hnil => absurd hnil h.2.1) fun r hr => ?_, fun hk x r rest hx => ?_⟩
  · cases hr
    exact hm
  · rw [messages_push] at hx
    cases hc : c.messages with
    | nil => exact absurd hc h.2.1
    | cons y back =>
      cases back with
      | nil =>
        refine ⟨c.system, y, [], ?_, ?_, .inl rfl⟩
        · rw [← hc, ← show c.mark = 0 from hk]
          exact h.2.2
        · exact (h.1.first y _ hc).resolve_right fun ⟨_, _, hne, _⟩ => hne hk
      | cons z back =>
        obtain ⟨rfl, rfl, -⟩ : y = x ∧ z = .reply r ∧ _ := by simpa [hc] using hx
        exact h.closed.2 hk y r back hc

/-- A request that is sent. -/
theorem Free.fromUser (h : Free es c) (hne : c.messages ≠ []) : FromUser es c.request := by
  intro model system messages mark heq
  obtain ⟨rfl, rfl, rfl, rfl⟩ := Event.request.inj heq
  obtain ⟨first, rest, hm⟩ := List.exists_cons_of_ne_nil hne
  refine ⟨first, rest, hm, (h.first first rest hm).imp_right fun ⟨m, hx, hk, hs⟩ =>
    ⟨m, hx, h.replies m ?_, hk, hs⟩⟩
  rw [hm, hx]
  exact List.mem_cons_self

end

section Exchange

variable {α : Type} {past : List Event} {Φ : List Event → Prop}
  {J J' : List Event → Conversation → Prop} {E : Stop → Scene Conversation → Prop}

/-- The conversation is in `J` after the events since `past`, which are in `Φ` besides, and every
request among them begins as it should. -/
abbrev Tale (past : List Event) (Φ : List Event → Prop) (J : List Event → Conversation → Prop)
    (s : Scene Conversation) : Prop :=
  s.world.Tells past FromUser fun es => J es s.focus ∧ Φ es

theorem Tale.mono {s : Scene Conversation} (h : Tale past Φ J s) (hJ : ∀ {es c}, J es c → J' es c) :
    Tale past Φ J' s := World.Tells.mono h fun _ hes => ⟨hJ hes.1, hes.2⟩

theorem brings_change {f : Conversation → Conversation} (hf : ∀ {es c}, J es c → J' es (f c)) :
    Brings (Tale past Φ J) (fun _ => Tale past Φ J') E (Act.modifyFocus f) :=
  fun _ hs => World.Tells.mono hs fun _ hes => ⟨hf hes.1, hes.2⟩

/-- The conversation after a refusal, with these replies left. -/
def Judged (rest : Script) : Verdict → List Event → Conversation → Prop
  | .retry _ => fun es c => Free es c ∧ c.script = rest
  | .giveUp => Closed

/-- The conversation was sent as it is, with these replies left. -/
abbrev AskedWith (rest : Script) (es : List Event) (c : Conversation) : Prop :=
  Asked es c ∧ c.script = rest

theorem brings_stop {rest : Script} {Q : α → Scene Conversation → Prop} (x : Stop) :
    Brings (Tale past Φ (AskedWith rest)) Q (fun _ => Tale past Φ Closed)
      (Act.lift (throw x : Effect α)) := fun _ hs => hs.mono fun h => h.1.closed

variable (hΦ : ∀ {es} e, Φ es → Φ (es ++ [e]))

include hΦ

theorem keeps_aside (hJ : ∀ {es c} e, J es c → J (es ++ [e]) c) {e : Effect α}
    (he : e.Leads Aside) :
    (Act.lift e).Keeps (Tale past Φ J) :=
  Act.keeps_effect (fun hs hl => World.Tells.follows hs hl fun _ e hes he =>
    ⟨⟨hJ e hes.1, hΦ e hes.2⟩, he.fromUser⟩) he.follows

/-- Something on the side while an answer is dealt with, in `J`, which is not open any more. -/
theorem brings_aside (hJ : ∀ {es c} e, J es c → J (es ++ [e]) c)
    (hclosed : ∀ {es c}, J es c → Closed es c) {e : Effect α} (he : e.Leads Aside) :
    Brings (Tale past Φ J) (fun _ => Tale past Φ J) (fun _ => Tale past Φ Closed) (Act.lift e) :=
  (keeps_aside hΦ hJ he).mono (fun _ => id) (fun _ _ => id) fun _ _ hs => hs.mono hclosed

theorem brings_receive {body : Datum}
    (hb : ∀ m, (body.field? "output").bind (·.field? "message") = some m →
      m.hasRole "assistant" = true) :
    Brings (Tale past Φ Asked) (fun _ => Tale past Φ Closed) (fun _ => Tale past Φ Closed)
      (receive body) := by
  intro s hs
  have hstop : ∀ (_ : Stop) (w : World), w = s.world → Tale past Φ Closed ⟨s.focus, w⟩ := by
    rintro _ _ rfl
    exact hs.mono Asked.closed
  refine ends_bind.2 (Act.ends_lift.2 ((ends_field body "output" _).mono ?_ hstop))
  rintro output _ ⟨hout, rfl⟩
  refine ends_bind.2 (Act.ends_lift.2 ((ends_field output "message" _).mono ?_ hstop))
  rintro message _ ⟨hmsg, rfl⟩
  refine ends_bind.2 (Act.ends_lift.2 ((ends_field message "content" _).mono ?_ hstop))
  rintro content _ ⟨-, rfl⟩
  have hm : message.hasRole "assistant" = true := hb message (by rw [hout]; exact hmsg)
  refine Brings.bind (brings_aside hΦ (fun e h => Asked.concat h e) Asked.closed
    (leads_isEmptyContent content)) (fun empty => ?_) s hs
  refine .ite (fun _ => .pure fun _ h => h.mono Asked.closed) fun _ => ?_
  exact .bind (brings_change fun h => Asked.hear h hm) fun _ =>
    keeps_aside hΦ (fun e h => Closed.concat h e) (leads_textOfContent content)

theorem brings_sideline {rest : Script} {e : Effect α} (he : e.Leads Aside) :
    Brings (Tale past Φ (AskedWith rest)) (fun _ => Tale past Φ (AskedWith rest))
      (fun _ => Tale past Φ Closed) (Act.lift e) :=
  brings_aside hΦ (fun e h => ⟨h.1.concat e, h.2⟩) (fun h => h.1.closed) he

theorem brings_line {rest : Script} (t : String) :
    Brings (Tale past Φ (AskedWith rest)) (fun _ => Tale past Φ (AskedWith rest))
      (fun _ => Tale past Φ Closed) (Act.lift (Effect.say t)) :=
  brings_sideline hΦ (Effect.leads_say t)

theorem brings_close {rest : Script} {Q : α → Scene Conversation → Prop} :
    Brings (Tale past Φ (AskedWith rest)) Q (fun _ => Tale past Φ Closed)
      (Act.lift (closeAndExit : Effect α)) := fun _ hs =>
  World.Tells.noting hs fun _ hes =>
    ⟨⟨hes.1.1.closed.concat .close, hΦ .close hes.2⟩, Aside.close.fromUser⟩

theorem brings_rejected (message : Option String) (shortened : Bool) {rest : Script} :
    Brings (Tale past Φ (AskedWith rest)) (fun v => Tale past Φ (Judged rest v))
      (fun _ => Tale past Φ Closed) (rejected message shortened) := by
  cases message with
  | none => exact brings_stop _
  | some message =>
    refine .ite (fun _ => (brings_line hΦ _).bind fun _ => ?_) fun _ =>
      .ite (fun _ => (brings_line hΦ _).bind fun _ => (brings_line hΦ _).bind fun _ =>
        brings_stop _) fun _ =>
      .ite (fun _ => ?_) fun _ => .ite (fun _ => ?_) fun _ => ?_
    · exact brings_close hΦ
    · exact .bind (Q := fun _ => Tale past Φ Closed)
        (brings_change fun h => h.1.1.dropFromMark) fun _ => fun _ hs => hs
    · exact .bind (Q := fun _ => Tale past Φ Closed)
        (brings_change fun h => h.1.1.keepMarkedOnly) fun _ => .pure fun _ hs => hs
    · refine (brings_sideline hΦ (Effect.leads_remark _)).bind fun _ =>
        .bind (Q := fun _ => Tale past Φ (Judged rest (.retry true)))
        (brings_change fun h => ?_) fun _ => .pure fun _ hs => hs
      exact ⟨h.1.1.dropBeforeMark, (script_dropBeforeMark _).trans h.2⟩

theorem brings_refused (code : String) (message : Option String) (shortened : Bool)
    {rest : Script} :
    Brings (Tale past Φ (AskedWith rest)) (fun v => Tale past Φ (Judged rest v))
      (fun _ => Tale past Φ Closed) (refused code message shortened) := by
  have hwait : (waitAfter code).Leads Aside :=
    (Effect.leads_remark _).bind fun _ => Effect.leads_record (.wait _) fun _ => rfl
  refine .ite (fun _ => Act.brings_focus_bind fun c _ => ?_) fun _ => .ite (fun _ => ?_) fun _ =>
    .ite (fun _ => ?_) fun _ => .ite (fun _ => ?_) fun _ =>
    .ite (fun _ => brings_rejected hΦ message shortened) fun _ => brings_stop _
  · exact (brings_line hΦ _).bind fun _ => (brings_line hΦ _).bind fun _ =>
      (brings_line hΦ _).bind fun _ => brings_close hΦ
  · exact (brings_sideline hΦ hwait).bind fun _ => .pure fun _ hs => hs.mono fun h => ⟨h.1.1, h.2⟩
  · exact (brings_line hΦ _).bind fun _ => (brings_line hΦ _).bind fun _ => brings_close hΦ
  · exact (brings_line hΦ _).bind fun _ => (brings_line hΦ _).bind fun _ => brings_close hΦ

/-- Sending the messages, if there are any. -/
theorem brings_asking {script : Script} {next : Act Conversation String}
    (hnext : Brings (Tale past Φ (AskedWith script)) (fun _ => Tale past Φ Closed)
      (fun _ => Tale past Φ Closed) next) :
    Brings (Tale past Φ fun es c => Free es c ∧ c.script = script) (fun _ => Tale past Φ Closed)
      (fun _ => Tale past Φ Closed) (asking next) := by
  intro s hs
  by_cases hnil : s.focus.messages = []
  · have hclosed : Tale past Φ Closed s := World.Tells.mono hs fun es hes =>
      ⟨⟨hes.1.1, fun _ x m rest hm => by simp [hnil] at hm⟩, hes.2⟩
    refine Brings.ite (K := fun t => t = s) (fun _ => ?_) (fun h => ?_) s rfl
    · rintro t rfl
      exact Brings.bind (keeps_aside hΦ (fun e h => Closed.concat h e) (Effect.leads_remark _))
        (fun _ => brings_done _) t hclosed
    · exact absurd (List.isEmpty_iff.2 hnil) h
  · refine Brings.ite (K := fun t => t = s) (fun h => ?_) (fun _ => ?_) s rfl
    · exact absurd (List.isEmpty_iff.1 h) hnil
    · rintro t rfl
      have hsent : Tale past Φ (AskedWith script) ⟨t.focus, t.world.noting t.focus.request⟩ :=
        World.Tells.noting hs fun es hes => ⟨⟨⟨⟨hes.1.1.concat _, hnil, by simp⟩, hes.1.2⟩,
          hΦ _ hes.2⟩, hes.1.1.fromUser hnil⟩
      exact hnext _ hsent

/-- However an exchange ends, what the conversation owes was sent. -/
theorem brings_exchange (script : Script) (shortened : Bool) :
    Brings (Tale past Φ fun es c => Free es c ∧ c.script = script) (fun _ => Tale past Φ Closed)
      (fun _ => Tale past Φ Closed) (exchange script shortened) := by
  induction script generalizing shortened with
  | nil => exact brings_asking hΦ (brings_stop _)
  | cons reply rest ih =>
    have hkeep : Brings (Tale past Φ (AskedWith (reply :: rest)))
        (fun _ => Tale past Φ (AskedWith rest)) (fun _ => Tale past Φ Closed)
        (keepScript rest) := by
      refine brings_change fun {es c} h => ⟨⟨?_, h.1.2.1, h.1.2.2⟩, rfl⟩
      have hassisted : ∀ r ∈ rest, r.isByAssistant = true :=
        fun r hr => h.1.1.assisted r (by rw [h.2]; exact List.mem_cons_of_mem _ hr)
      exact h.1.1.congr hassisted rfl rfl
    have hrole {s : Scene Conversation} (hs : Tale past Φ (AskedWith (reply :: rest)) s) {m : Datum}
        (hm : reply.message? = some m) : m.hasRole "assistant" = true := by
      obtain ⟨es, -, ⟨h, -⟩, -⟩ := hs
      exact h.1.1.assisted.hasRole (by rw [h.2]; exact List.mem_cons_self) hm
    refine brings_asking hΦ ?_
    cases reply with
    | always body =>
      exact fun s hs => brings_receive hΦ (fun m => hrole hs) s (hs.mono And.left)
    | response body =>
      intro s hs
      refine Brings.bind hkeep (fun _ => ?_) s hs
      exact (brings_receive hΦ fun m => hrole hs).mono (fun _ h => h.mono And.left) (fun _ _ => id)
        fun _ _ => id
    | timeout =>
      have hwait : (waitAfter "TimeoutError").Leads Aside :=
        (Effect.leads_remark _).bind fun _ => Effect.leads_record (.wait _) fun _ => rfl
      exact hkeep.bind fun _ => (brings_sideline hΦ hwait).bind fun _ =>
        (ih shortened).mono (fun _ hs => hs.mono fun h => ⟨h.1.1, h.2⟩) (fun _ _ => id)
          fun _ _ => id
    | interrupt => exact hkeep.bind fun _ => brings_stop _
    | refusal code message =>
      refine hkeep.bind fun _ => (brings_refused hΦ code message shortened).bind fun verdict => ?_
      cases verdict with
      | retry shortened => exact ih shortened
      | giveUp => exact .pure fun _ hs => hs

theorem brings_ask :
    Brings (Tale past Φ Closed) (fun _ => Tale past Φ Closed) (fun _ => Tale past Φ Closed) ask :=
  fun s hs => brings_exchange hΦ s.focus.script false s
    (World.Tells.mono hs fun _ hes => ⟨⟨hes.1.1, rfl⟩, hes.2⟩)

end Exchange

/-! ## Between the requests -/

/-- What is told and what the model is told to be makes no difference to `J`. -/
structure Lasting (J : List Event → Conversation → Prop) : Prop where
  concat : ∀ {es c} e, J es c → J (es ++ [e]) c
  tell : ∀ {es c} t, J es c → J es (c.push (.user [.text t]))
  system : ∀ {es c} texts, J es c → J es { c with system := texts }

theorem lasting_closed : Lasting Closed where
  concat e h := h.concat e
  tell _ h := ⟨h.1.push_user _, h.2.push_user _⟩
  system _ h := ⟨h.1.congr h.1.assisted rfl rfl, h.2.congr rfl rfl⟩

theorem lasting_primed : Lasting Primed where
  concat e h := h.concat e
  tell _ h := ⟨h.1.push_user _, h.2.push_user _⟩
  system _ h := ⟨h.1.congr h.1.assisted rfl rfl, h.2.congr rfl rfl⟩

section Between

variable {past : List Event} {Φ : List Event → Prop} {J : List Event → Conversation → Prop}
  (hΦ : ∀ {es} e, Φ es → Φ (es ++ [e]))

include hΦ

theorem Lasting.tellBoth (h : Lasting J) (text file : String) :
    (tellBoth text file).Keeps (Tale past Φ J) := by
  have hadd (t : String) : (add [.text t]).Keeps (Tale past Φ J) :=
    brings_change fun hc => h.tell t hc
  have hfile : (do
      if file != "" then
        let prompt ← Effect.readText ((← Act.focus).promptDir ++ file)
        Conversation.add [.text prompt] : Act Conversation Unit).Keeps (Tale past Φ J) := by
    refine .ite (fun _ => Act.brings_focus_bind fun _ _ => ?_) fun _ => brings_done _
    exact (keeps_aside hΦ h.concat (Effect.leads_readText _)).bind fun prompt => hadd prompt
  exact .ite (fun _ => (hadd text).bind fun _ => hfile) fun _ => hfile

theorem Lasting.setSystem (h : Lasting J) (text file : String) :
    (setSystem text file).Keeps (Tale past Φ J) := by
  refine .ite (fun _ => brings_change fun hc => h.system _ hc) fun _ =>
    .ite (fun _ => Act.brings_focus_bind fun _ _ => ?_) fun _ => brings_done _
  exact (keeps_aside hΦ h.concat (Effect.leads_readText _)).bind fun prompt =>
    brings_change fun hc => h.system _ hc

end Between

/-! ## The next file -/

/-- The conversation has no marked message. -/
def Unmarked (es : List Event) (c : Conversation) : Prop := Free es c ∧ c.mark = -1

/-- A message of the user was added to a conversation without a marked one. -/
def Extended (es : List Event) (c : Conversation) : Prop :=
  ∃ c₀ parts, c = c₀.push (.user parts) ∧ Unmarked es c₀

theorem Unmarked.closed {es : List Event} {c : Conversation} (h : Unmarked es c) : Closed es c :=
  ⟨h.1, owes_of_mark h.2⟩

theorem Unmarked.concat {es : List Event} {c : Conversation} (h : Unmarked es c) (e : Event) :
    Unmarked (es ++ [e]) c := ⟨h.1.concat e, h.2⟩

theorem model_withoutMarked {c c' : Conversation} (h : c.withoutMarked = .ok c') :
    c'.model = c.model := by
  unfold withoutMarked at h
  cases hm : c.isMarked with
  | false =>
    rw [hm] at h
    obtain rfl := Except.ok.inj h
    rfl
  | true =>
    rw [hm, if_pos rfl] at h
    cases hp : place c.messages.length c.mark with
    | error f =>
      rw [hp] at h
      cases h
    | ok k =>
      rw [hp] at h
      obtain rfl := Except.ok.inj h
      rfl

section Next

variable {past : List Event} {Φ : List Event → Prop}

/-- What is dropped for the next file leaves what it owed at the beginning. -/
theorem brings_dropMarked :
    Brings (Tale past Φ Primed) (fun _ => Tale past Φ Unmarked) (fun _ => Tale past Φ Closed)
      dropMarked := by
  intro s hs
  unfold Ends
  cases hc : s.focus.withoutMarked with
  | ok c =>
    rw [dropMarked_of_ok hc s.world]
    refine World.Tells.mono hs fun es hes => ⟨?_, hes.2⟩
    have hdrop := Begins.withoutMarked hes.1.1 hes.1.2 hc
    rw [← model_withoutMarked hc] at hdrop
    exact hdrop
  | error f =>
    rw [dropMarked_of_error hc s.world]
    exact hs.mono Primed.closed

theorem brings_mark :
    Brings (Tale past Φ Extended) (fun _ => Tale past Φ Closed) (fun _ => Tale past Φ Closed)
      (Act.modifyFocus markLast) := by
  refine brings_change ?_
  rintro es _ ⟨c, parts, rfl, h⟩
  exact h.1.attach parts

theorem brings_attach (hΦ : ∀ {es} e, Φ es → Φ (es ++ [e])) (text path : String) :
    Brings (Tale past Φ Unmarked) (fun _ => Tale past Φ Extended) (fun _ => Tale past Φ Closed)
      (attachWith text path) := by
  have hdocument : (documentOf path).Leads Aside :=
    ((Effect.leads_openFile path).bind fun _ => .pure _).bind fun _ => .pure _
  exact .bind (brings_aside hΦ (fun e h => Unmarked.concat h e) Unmarked.closed hdocument)
    fun document => brings_change fun {es c} h => ⟨c, _, rfl, h⟩

end Next

end Conversation

end Covenant
