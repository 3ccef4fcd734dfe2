import Covenant.Conversation.Exchange
import Covenant.Proofs.World.History

/-!
# What an exchange does to a conversation

An exchange sends requests until it ends. Between two of them the conversation can only be cut down
to what the mark keeps, so a property that survives this cut holds of every request
(`leads_exchange`). The end adds a reply, or leaves the marked message alone, or takes it out with
all after it when the exchange is stopped. A `Stable` property survives everything but the last.
-/

namespace Covenant

/-- The message that a response brings. -/
def Reply.message? : Reply → Option Datum
  | .response body | .always body => (body.field? "output").bind (·.field? "message")
  | _ => none

namespace Conversation

/-! ## The marked message -/

/-- The marked message is `m`, between `front` and `back`. -/
structure MarkedAt (front : List Message) (m : Message) (back : List Message)
    (c : Conversation) : Prop where
  messages : c.messages = front ++ m :: back
  mark : c.mark = (front.length : Int)

section Mark

variable {front back : List Message} {m : Message} {c c' : Conversation}

theorem markedAt_markLast (c : Conversation) (m : Message) :
    MarkedAt c.messages m [] (c.push m).markLast := by
  refine ⟨rfl, ?_⟩
  simp only [markLast, messages_push, List.length_append, List.length_singleton]
  omega

theorem MarkedAt.isMarked (h : MarkedAt front m back c) : c.isMarked = true := by
  rw [Conversation.isMarked, Bool.and_eq_true, bne_iff_ne, decide_eq_true_iff, h.messages, h.mark]
  simp only [List.length_append, List.length_cons]
  omega

theorem MarkedAt.nearest (h : MarkedAt front m back c) :
    nearest c.messages.length c.mark = front.length := by
  rw [Conversation.nearest, h.messages, h.mark, if_neg (by omega)]
  simp

theorem MarkedAt.push (h : MarkedAt front m back c) (x : Message) :
    MarkedAt front m (back ++ [x]) (c.push x) :=
  ⟨by rw [messages_push, h.messages, List.append_assoc, List.cons_append], h.mark⟩

theorem MarkedAt.dropBeforeMark (h : MarkedAt front m back c) :
    MarkedAt [] m back c.dropBeforeMark := by
  have hd : c.fromMark = m :: back := by
    rw [fromMark, if_pos h.isMarked, h.nearest, h.messages, List.drop_left]
  rw [Conversation.dropBeforeMark, if_pos h.isMarked]
  exact ⟨hd, rfl⟩

theorem MarkedAt.keepMarkedOnly (h : MarkedAt front m back c) :
    MarkedAt [] m [] c.keepMarkedOnly := by
  rw [Conversation.keepMarkedOnly, if_pos h.isMarked]
  refine ⟨?_, h.dropBeforeMark.mark⟩
  show c.dropBeforeMark.messages.take 1 = [m]
  rw [h.dropBeforeMark.messages]
  rfl

theorem MarkedAt.dropFromMark (h : MarkedAt front m back c) :
    c.dropFromMark = { c with messages := front, mark := -1 } := by
  rw [Conversation.dropFromMark, if_pos h.isMarked, h.nearest, h.messages, List.take_left]

theorem MarkedAt.withoutMarked (h : MarkedAt front m back c) (hc : c.withoutMarked = .ok c') :
    c' = { c with messages := front ++ back, mark := -1 } := by
  rw [Conversation.withoutMarked, if_pos h.isMarked] at hc
  cases hp : place c.messages.length c.mark with
  | error f =>
    rw [hp] at hc
    cases hc
  | ok k =>
    have hk : k = front.length := by
      rw [place, h.mark] at hp
      split at hp
      · cases hp
      · rw [if_pos (by omega)] at hp
        split at hp
        · cases hp
          omega
        · cases hp
    rw [hp] at hc
    obtain rfl := Except.ok.inj hc
    have he : c.messages.eraseIdx k = front ++ back := by
      rw [hk, h.messages, List.eraseIdx_append_of_length_le (Nat.le_refl _)]
      simp
    show { c with messages := c.messages.eraseIdx k, mark := -1 } = _
    rw [he]

theorem script_dropBeforeMark (c : Conversation) : c.dropBeforeMark.script = c.script := by
  unfold Conversation.dropBeforeMark
  cases c.isMarked with
  | true => rfl
  | false => rfl

end Mark

/-! ## Requests -/

/-- The request that the conversation sends. -/
def request (c : Conversation) : Event := .request c.model c.system c.messages c.mark

/-- What an exchange does: requests of conversations in `I`, waiting, and closing. -/
inductive Said (I : Conversation → Prop) : Event → Prop
  | request {c : Conversation} : I c → Said I c.request
  | wait (seconds : Nat) : Said I (.wait seconds)
  | close : Said I .close

theorem Said.mono {I I' : Conversation → Prop} (hI : ∀ c, I c → I' c) {e : Event}
    (h : Said I e) : Said I' e := by
  cases h with
  | request hc => exact .request (hI _ hc)
  | wait n => exact .wait n
  | close => exact .close

/-- A property that holds from one request of an exchange to the next, where the replies that are
left bring messages in `H`. -/
structure Resumes (H : Datum → Prop) (I : Conversation → Prop) : Prop where
  replies : ∀ {c}, I c → ∀ r ∈ c.script, ∀ m, r.message? = some m → H m
  next : ∀ {c}, I c → I { c with script := c.script.tail }
  shorten : ∀ {c}, I c → I c.dropBeforeMark

/-- Conversations at the end of an exchange whose requests had `I`. -/
inductive Answered (H : Datum → Prop) (I : Conversation → Prop) : Conversation → Prop
  | same {c : Conversation} : I c → Answered H I c
  | heard {c : Conversation} {m : Datum} : I c → H m → Answered H I (c.push (.reply m))
  | cut {c : Conversation} : I c → Answered H I c.keepMarkedOnly

/-- Conversations at the end of an exchange that was stopped. -/
inductive Stopped (H : Datum → Prop) (I : Conversation → Prop) : Conversation → Prop
  | answered {c : Conversation} : Answered H I c → Stopped H I c
  | dropped {c : Conversation} : I c → Stopped H I c.dropFromMark

theorem Answered.mono {H : Datum → Prop} {I I' : Conversation → Prop} (hI : ∀ c, I c → I' c)
    {c : Conversation} (h : Answered H I c) : Answered H I' c := by
  cases h with
  | same hc => exact .same (hI _ hc)
  | heard hc hm => exact .heard (hI _ hc) hm
  | cut hc => exact .cut (hI _ hc)

theorem Stopped.mono {H : Datum → Prop} {I I' : Conversation → Prop} (hI : ∀ c, I c → I' c)
    {c : Conversation} (h : Stopped H I c) : Stopped H I' c := by
  cases h with
  | answered hc => exact .answered (hc.mono hI)
  | dropped hc => exact .dropped (hI _ hc)

section Exchange

variable {st : Settings} {P : Event → Prop} {H : Datum → Prop} {I : Conversation → Prop}

theorem Stopped.same {c : Conversation} (h : I c) : Stopped H I c := .answered (.same h)

/-- An operation of the world changes no conversation. -/
theorem leads_aside {α : Type} {e : Effect α} (he : e.Leads P) :
    (Act.lift e).Leads st P I (fun _ => I) (Stopped H I) :=
  Act.leads_lift he (fun _ _ => id) fun _ => Stopped.same

theorem ends_field (d : Datum) (name : String) (w : World) :
    Ends (field d name) w (fun v w' => d.field? name = some v ∧ w' = w) fun _ w' => w' = w := by
  unfold field Datum.field?
  cases d with
  | record fields =>
    dsimp only
    cases fields.lookup name with
    | some v => exact ⟨rfl, rfl⟩
    | none => exact rfl
  | _ => exact rfl

theorem leads_isEmptyContent (d : Datum) : (isEmptyContent d).Leads P := by
  cases d with
  | list items => exact .pure _
  | record fields => exact .pure _
  | text s => exact .pure _
  | _ => exact Effect.leads_fail _

theorem leads_textOfPart (d : Datum) : (textOfPart d).Leads P := by
  cases d with
  | record fields =>
    unfold textOfPart
    dsimp only
    cases fields.lookup "text" with
    | none => exact .pure _
    | some v =>
      cases v with
      | text s => exact .pure _
      | _ => exact Effect.leads_fail _
  | text s => exact .ite (fun _ => Effect.leads_fail _) fun _ => .pure _
  | list items => exact .ite (fun _ => Effect.leads_fail _) fun _ => .pure _
  | _ => exact Effect.leads_fail _

theorem leads_textOfParts (ds : List Datum) : (textOfParts ds).Leads P := by
  induction ds with
  | nil => exact .pure _
  | cons d ds ih => exact (leads_textOfPart d).bind fun _ => ih.bind fun _ => .pure _

theorem leads_textOfContent (d : Datum) : (textOfContent d).Leads P := by
  cases d with
  | list items => exact leads_textOfParts items
  | record fields => exact Effect.leads_fail _
  | _ => exact .pure _

/-- A response whose message is in `H` is heard, or nothing changes. -/
theorem leads_receive {body : Datum}
    (hb : ∀ m, (body.field? "output").bind (·.field? "message") = some m → H m) :
    (receive body).Leads st P I (fun _ => Answered H I) (Stopped H I) := by
  intro s hst hs
  have hstop : ∀ (_ : Stop) (w : World), w = s.world →
      Stopped H I s.focus ∧ s.world.Leads P w := by
    rintro _ _ rfl
    exact ⟨.same hs, .refl _⟩
  refine ends_bind.2 (Act.ends_lift.2 ((ends_field body "output" _).mono ?_ hstop))
  rintro output _ ⟨hout, rfl⟩
  refine ends_bind.2 (Act.ends_lift.2 ((ends_field output "message" _).mono ?_ hstop))
  rintro message _ ⟨hmsg, rfl⟩
  refine ends_bind.2 (Act.ends_lift.2 ((ends_field message "content" _).mono ?_ hstop))
  rintro content _ ⟨-, rfl⟩
  have hm : H message := hb message (by rw [hout]; exact hmsg)
  refine Act.Leads.bind (leads_aside (leads_isEmptyContent content)) (fun empty => ?_) s hst hs
  refine .ite (fun _ => .pure fun _ h => .same h) fun _ => ?_
  refine .bind (K := fun _ => Answered H I) (Act.leads_modifyFocus fun _ h => .heard h hm)
    fun _ => ?_
  exact Act.leads_lift (leads_textOfContent content) (fun _ _ => id) fun _ h => .answered h

theorem leads_waitAfter (cause : String) : (waitAfter cause).Leads (Said I) :=
  (Effect.leads_remark _).bind fun _ => Effect.leads_record (.wait _) fun _ => rfl

/-- How an exchange in `I` goes on after a refusal. -/
def Decided (H : Datum → Prop) (I : Conversation → Prop) : Verdict → Conversation → Prop
  | .retry _ => I
  | .giveUp => Answered H I

theorem leads_line (t : String) :
    (Act.lift (Effect.say t)).Leads st (Said I) I (fun _ => I) (Stopped H I) :=
  leads_aside (Effect.leads_say t)

theorem leads_stop {α : Type} {K : α → Conversation → Prop} (x : Stop) :
    (Act.lift (throw x : Effect α)).Leads st (Said I) I K (Stopped H I) :=
  fun _ _ hs => ⟨.same hs, .refl _⟩

theorem leads_end {α : Type} {K : α → Conversation → Prop} :
    (Act.lift (closeAndExit : Effect α)).Leads st (Said I) I K (Stopped H I) :=
  fun _ _ hs => ⟨.same hs, .record .close fun _ => rfl⟩

theorem leads_rejected (hI : ∀ c, I c → I c.dropBeforeMark) (message : Option String)
    (shortened : Bool) :
    (rejected message shortened).Leads st (Said I) I (Decided H I) (Stopped H I) := by
  cases message with
  | none => exact leads_stop _
  | some message =>
    refine .ite (fun _ => (leads_line _).bind fun _ => leads_end) fun _ =>
      .ite (fun _ => (leads_line _).bind fun _ => (leads_line _).bind fun _ => leads_stop _)
      fun _ => .ite (fun _ => ?_) fun _ => .ite (fun _ => ?_) fun _ => ?_
    · refine .bind (K := fun _ => Stopped H I) (Act.leads_modifyFocus fun _ h => .dropped h)
        fun _ => ?_
      exact fun _ _ hs => ⟨hs, .refl _⟩
    · refine .bind (K := fun _ => Answered H I) (Act.leads_modifyFocus fun _ h => .cut h)
        fun _ => ?_
      exact .pure fun _ h => h
    · refine (leads_aside (Effect.leads_remark _)).bind fun _ => ?_
      refine .bind (Act.leads_modifyFocus (K := fun _ => I) hI) fun _ => ?_
      exact .pure fun _ h => h

theorem leads_refused (hI : ∀ c, I c → I c.dropBeforeMark) (code : String)
    (message : Option String) (shortened : Bool) :
    (refused code message shortened).Leads st (Said I) I (Decided H I) (Stopped H I) := by
  refine .ite (fun _ => .focus_bind fun c _ => ?_) fun _ => .ite (fun _ => ?_) fun _ =>
    .ite (fun _ => ?_) fun _ => .ite (fun _ => ?_) fun _ =>
    .ite (fun _ => leads_rejected hI message shortened) fun _ => leads_stop _
  · exact (leads_line _).bind fun _ => (leads_line _).bind fun _ => (leads_line _).bind
      fun _ => leads_end
  · exact (leads_aside (leads_waitAfter code)).bind fun _ => .pure fun _ h => h
  · exact (leads_line _).bind fun _ => (leads_line _).bind fun _ => leads_end
  · exact (leads_line _).bind fun _ => (leads_line _).bind fun _ => leads_end

/-- Sending the messages of a conversation in `I`. -/
theorem leads_asking {next : Act Conversation String} {J : Conversation → Prop}
    (hJ : ∀ c, J c → I c)
    (hn : next.Leads st (Said I) J (fun _ => Answered H I) (Stopped H I)) :
    (asking next).Leads st (Said I) J (fun _ => Answered H I) (Stopped H I) := by
  refine .focus_bind fun c hc => .ite (fun _ => ?_) fun _ => ?_
  · refine .bind (Act.leads_lift (K := fun _ => J) (Effect.leads_remark _) (fun _ _ => id)
      fun c hc => .same (hJ c hc)) fun _ => ?_
    exact .pure fun c hc => .same (hJ c hc)
  · refine .bind (Act.leads_lift (K := fun _ => J) (Effect.leads_record ?_ fun _ => rfl)
      (fun _ _ => id) fun c hc => .same (hJ c hc)) fun _ => hn
    exact .request (hJ c hc)

/-- All requests of an exchange have what holds from one to the next. -/
theorem leads_exchange (hI : Resumes H I) (script : Script) (shortened : Bool) :
    (exchange script shortened).Leads st (Said I) (fun c => I c ∧ c.script = script)
      (fun _ => Answered H I) (Stopped H I) := by
  induction script generalizing shortened with
  | nil =>
    refine leads_asking (fun _ h => h.1) ?_
    exact fun _ _ hs => ⟨.same hs.1, .refl _⟩
  | cons reply rest ih =>
    have hbody : ∀ body, (reply = .response body ∨ reply = .always body) → ∀ c : Conversation,
        I c ∧ c.script = reply :: rest →
        ∀ m, (body.field? "output").bind (·.field? "message") = some m → H m := by
      rintro body hr c ⟨hc, hs⟩ m hm
      refine hI.replies hc reply (by rw [hs]; exact List.mem_cons_self) m ?_
      rcases hr with rfl | rfl <;> exact hm
    -- the reply is used up, and the others are left
    have hkeep : (keepScript rest).Leads st (Said I) (fun c => I c ∧ c.script = reply :: rest)
        (fun _ c => I c ∧ c.script = rest) (Stopped H I) := by
      refine Act.leads_modifyFocus fun c hc => ⟨?_, rfl⟩
      have hn := hI.next hc.1
      rwa [hc.2] at hn
    refine leads_asking (fun _ h => h.1) ?_
    cases reply with
    | always body =>
      intro s hst hs
      exact leads_receive (hbody body (.inr rfl) _ hs) s hst hs.1
    | response body =>
      intro s hst hs
      refine (hkeep.bind (L := fun _ => Answered H I) fun _ => ?_) s hst hs
      exact (leads_receive (hbody body (.inl rfl) _ hs)).mono (fun _ => id) (fun _ h => h.1)
        (fun _ _ => id) fun _ => id
    | timeout =>
      refine hkeep.bind fun _ => .bind (Act.leads_lift (K := fun _ c => I c ∧ c.script = rest)
        (leads_waitAfter _) (fun _ _ => id) fun _ h => .same h.1) fun _ => ih shortened
    | interrupt =>
      exact hkeep.bind fun _ => fun _ _ hs => ⟨.same hs.1, .refl _⟩
    | refusal code message =>
      have hshort : ∀ c : Conversation, I c ∧ c.script = rest →
          I c.dropBeforeMark ∧ c.dropBeforeMark.script = rest :=
        fun c hc => ⟨hI.shorten hc.1, (script_dropBeforeMark c).trans hc.2⟩
      refine hkeep.bind fun _ => .bind ((leads_refused (H := H) hshort code message shortened).mono
        (fun _ => .mono fun _ => And.left) (fun _ => id) (fun _ _ => id)
        fun _ => .mono fun _ => And.left) fun verdict => ?_
      cases verdict with
      | retry shortened => exact ih shortened
      | giveUp => exact .pure fun _ => .mono fun _ => And.left

theorem leads_ask (hI : Resumes H I) :
    ask.Leads st (Said I) I (fun _ => Answered H I) (Stopped H I) :=
  fun s hst hs => leads_exchange hI s.focus.script false s hst ⟨hs, rfl⟩

/-- What is too long for the model is given up, from wherever it was stopped. -/
theorem brings_onInputTooLong {σ : Type} {act next : Act σ Unit} {K E : Scene σ → Prop}
    {Q : Unit → Scene σ → Prop} (ha : Brings K Q (fun _ => E) act)
    (hn : Brings E Q (fun _ => E) next) : Brings K Q (fun _ => E) (onInputTooLong act next) := by
  intro s hs
  refine ends_tryCatch.2 ((ha s hs).mono (fun _ _ => id) fun e t ht => ?_)
  cases e with
  | fault f =>
    cases f with
    | inputTooLong => exact hn t ht
    | _ => exact ht
  | _ => exact ht

theorem leads_onInputTooLong {σ : Type} {act next : Act σ Unit} {J D : σ → Prop}
    {K : Unit → σ → Prop} (ha : act.Leads st P J K D) (hn : next.Leads st P D K D) :
    (onInputTooLong act next).Leads st P J K D := by
  intro s hst hs
  have hsince {w w' : World} (hw : s.world.Leads P w) (hl : w.Leads P w') : s.world.Leads P w' :=
    hw.trans hl
  exact (brings_onInputTooLong (ha.brings hsince) (hn.brings hsince) s ⟨hst, hs, .refl _⟩).mono
    (fun _ _ ht => ⟨ht.focus, ht.world⟩) fun _ _ ht => ⟨ht.focus, ht.world⟩

end Exchange

/-! ## Stable properties -/

/-- A property that survives what is said, heard and cut in an exchange that is not stopped. -/
structure Stable (H : Datum → Prop) (I : Conversation → Prop) : Prop extends Resumes H I where
  system : ∀ {c}, I c → ∀ texts, I { c with system := texts }
  tell : ∀ {c}, I c → ∀ t, I (c.push (.user [.text t]))
  hear : ∀ {c m}, I c → H m → I (c.push (.reply m))
  keep : ∀ {c}, I c → I c.keepMarkedOnly

/-- Nothing need be known of a conversation. -/
theorem stable_true : Stable (fun _ => True) fun _ => True where
  replies _ _ _ _ _ := trivial
  next _ := trivial
  shorten _ := trivial
  system _ _ := trivial
  tell _ _ := trivial
  hear _ _ := trivial
  keep _ := trivial

section Unknown

variable {st : Settings} {P : Event → Prop}

theorem dropMarked_of_ok {c d : Conversation} (h : c.withoutMarked = .ok d) (w : World) :
    dropMarked ⟨c, w⟩ = .ok () ⟨d, w⟩ := by
  unfold dropMarked
  rw [Act.focus_bind_apply, h]
  rfl

theorem dropMarked_of_error {c : Conversation} {f : PlaceFault} (h : c.withoutMarked = .error f)
    (w : World) : dropMarked ⟨c, w⟩ = .error (.fault (.noSuchMessage f)) ⟨c, w⟩ := by
  unfold dropMarked
  rw [Act.focus_bind_apply, h]
  rfl

theorem leads_dropMarked_any :
    dropMarked.Leads st P (fun _ => True) (fun _ _ => True) fun _ => True := by
  refine .focus_bind fun c _ => ?_
  cases c.withoutMarked with
  | ok c => exact Act.leads_modifyFocus fun _ _ => trivial
  | error f => exact Act.leads_lift (Effect.leads_fail _) (fun _ _ => id) fun _ => id

/-- A message with the text and some document is added. -/
theorem leads_documentOf (path : String) : (documentOf path).Leads P :=
  ((Effect.leads_openFile path).bind fun _ => .pure _).bind fun _ => .pure _

theorem leads_attachWith_any (text path : String) :
    (attachWith text path).Leads st P (fun _ => True)
      (fun _ c => ∃ (c₀ : Conversation) (document : Part),
        c = c₀.push (.user [.text text, document])) fun _ => True := by
  refine .bind (K := fun _ _ => True)
    (Act.leads_lift (leads_documentOf path) (fun _ _ => id) fun _ => id) fun document => ?_
  exact Act.leads_modifyFocus fun c _ => ⟨c, document, rfl⟩

/-- A text that is not empty is added. -/
theorem leads_tell {A B D : Conversation → Prop} {text : String} (hne : text ≠ "")
    (h : ∀ c, A c → B (c.push (.user [.text text]))) :
    (tell text).Leads st P A (fun _ => B) D := by
  refine .ite (fun _ => ?_) fun hno => absurd (by simpa using hno) hne
  exact .bind (K := fun _ => B) (Act.leads_modifyFocus h) fun _ => .pure fun _ => id

end Unknown

section Stable

variable {st : Settings} {P : Event → Prop} {H : Datum → Prop} {I : Conversation → Prop}
  (hI : Stable H I)

include hI

theorem Stable.answered {c : Conversation} (h : Answered H I c) : I c := by
  cases h with
  | same hc => exact hc
  | heard hc hm => exact hI.hear hc hm
  | cut hc => exact hI.keep hc

theorem Stable.ask : ask.Leads st (Said I) I (fun _ => I) (Stopped H I) :=
  (leads_ask hI.toResumes).mono (fun _ => id) (fun _ => id) (fun _ _ => hI.answered) fun _ => id

theorem Stable.add (t : String) : (add [.text t]).Leads st P I (fun _ => I) (Stopped H I) :=
  Act.leads_modifyFocus fun _ hc => hI.tell hc t

theorem Stable.tellBoth (text file : String) :
    (tellBoth text file).Leads st P I (fun _ => I) (Stopped H I) := by
  have hfile : (do
      if file != "" then
        let prompt ← Effect.readText ((← Act.focus).promptDir ++ file)
        Conversation.add [.text prompt] : Act Conversation Unit).Leads st P I (fun _ => I)
        (Stopped H I) := by
    refine .ite (fun _ => .focus_bind fun c _ => ?_) fun _ => .pure fun _ => id
    exact (leads_aside (Effect.leads_readText _)).bind fun prompt => hI.add prompt
  exact .ite (fun _ => (hI.add text).bind fun _ => hfile) fun _ => hfile

theorem Stable.setSystem (text file : String) :
    (setSystem text file).Leads st P I (fun _ => I) (Stopped H I) := by
  refine .ite (fun _ => Act.leads_modifyFocus fun _ h => hI.system h _) fun _ =>
    .ite (fun _ => .focus_bind fun c _ => ?_) fun _ => .pure fun _ => id
  exact (leads_aside (Effect.leads_readText _)).bind fun prompt =>
    Act.leads_modifyFocus fun _ h => hI.system h _

theorem Stable.greet : greet.Leads st (Said I) I (fun _ => I) (Stopped H I) :=
  (hI.tellBoth _ _).bind fun _ => hI.ask

end Stable

end Conversation

end Covenant
