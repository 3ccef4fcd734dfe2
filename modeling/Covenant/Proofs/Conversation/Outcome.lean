import Covenant.Proofs.Conversation.Mark
import Covenant.Proofs.Conversation.Repeat
import Covenant.Proofs.World.Exact

/-!
# How an exchange ends

A client is asked with the same messages until a reply decides; that is a `Hearing`. An exchange is
one hearing of all messages, and after a rejection a second one of those from the mark on. The last
reply and the number of hearings decide how it ends (`ask_outcome`), and of the messages from the
mark on none is lost unless both hearings ended with a rejection.

1. Replies that pass are used up without any change of the messages (`ends_passing`).
2. The reply after them settles the exchange, or rejects all messages for the first time
   (`ends_deciding`).
3. The second hearing is settled by its reply, as a second rejection is the end.
-/

namespace Covenant

open Text

/-! ## Replies that decide -/

/-- Whether the value is a part of a content: a record whose text, if it has one, is a text. -/
def Datum.isPart : Datum → Bool
  | .record fields =>
    match fields.lookup "text" with
    | some (.text _) => true
    | some _ => false
    | none => true
  | _ => false

/-- The parts of a message. -/
def Datum.parts? (message : Datum) : Option (List Datum) :=
  match message.field? "content" with
  | some (.list parts) => some parts
  | _ => none

/-- The texts of the parts, one after the other. -/
def Datum.textOf (parts : List Datum) : String :=
  String.join (parts.map fun part => part.partText?.getD "")

/-- Whether the reply is no response, or one with a message that is a list of parts. -/
def Reply.isWellFormed (reply : Reply) : Bool :=
  match reply with
  | .response _ | .always _ =>
    reply.message?.any fun message => message.parts?.any fun parts => parts.all Datum.isPart
  | _ => true

/-- The text with which the messages are rejected. A refusal for the name of the model, or for the
way it is called, rejects no messages. -/
def Reply.rejection? : Reply → Option String
  | .refusal code (some text) =>
    if code == "ValidationException" && !contains "model identifier is invalid" text.toList &&
        !contains "with on-demand throughput" text.toList then some text
    else none
  | _ => none

theorem Reply.rejection?_eq_some_iff {code message text : String} :
    (Reply.refusal code (some message)).rejection? = some text ↔
      code = "ValidationException" ∧ contains "model identifier is invalid" message.toList = false ∧
        contains "with on-demand throughput" message.toList = false ∧ message = text := by
  rw [Reply.rejection?, Option.ite_none_right_eq_some]
  simp [and_assoc]

/-- What a client does with one list of messages: the replies that pass, and the one that decides,
if the script has one. -/
structure Hearing where
  passed : List Reply
  reply : Option Reply

/-- The text with which the hearing rejects the messages. -/
def Hearing.rejection? (h : Hearing) : Option String := h.reply.bind Reply.rejection?

/-- The replies from the first that does not pass. -/
def deciding (script : Script) : Script := script.dropWhile Reply.isTransient

/-- The next hearing of a client with this script. -/
def nextHearing (script : Script) : Hearing :=
  ⟨script.takeWhile Reply.isTransient, (deciding script).head?⟩

/-- Whether an exchange has a second hearing: the first one rejects the messages. -/
def isReheard (script : Script) : Bool := (nextHearing script).rejection?.isSome

/-- The last hearing of an exchange. -/
def lastHearing (script : Script) : Hearing :=
  if isReheard script then nextHearing (deciding script).tail else nextHearing script

/-! ## Requests -/

/-- The messages that a request sends. -/
def Event.sent? : Event → Option (List Message)
  | .request _ _ messages _ => some messages
  | _ => none

/-- Exactly these lists of messages are sent on the way from the first world to the second. -/
def World.Sends (sent : List (List Message)) (w v : World) : Prop :=
  ∃ es, v.trace.events = w.trace.events ++ es ∧ es.filterMap Event.sent? = sent

namespace World.Sends

variable {sent sent' : List (List Message)} {w u v : World}

theorem refl (w : World) : w.Sends [] w := ⟨[], (List.append_nil _).symm, rfl⟩

theorem trans (h : w.Sends sent u) (h' : u.Sends sent' v) : w.Sends (sent ++ sent') v := by
  obtain ⟨es, he, rfl⟩ := h
  obtain ⟨es', he', rfl⟩ := h'
  exact ⟨es ++ es', by rw [he', he, List.append_assoc], List.filterMap_append⟩

/-- Nothing more is sent. -/
theorem quiet (h : w.Sends sent u) (h' : u.Sends [] v) : w.Sends sent v := by
  have := h.trans h'
  rwa [List.append_nil] at this

theorem of_does {es : List Event} (h : w.Does es v) : w.Sends (es.filterMap Event.sent?) v :=
  ⟨es, h.events, rfl⟩

theorem request (c : Conversation) (w : World) : w.Sends [c.messages] (w.noting c.request) :=
  of_does (.noting w c.request)

end World.Sends

namespace Effect

/-- Printing sends nothing, and stops for no other reason than the text. -/
theorem ends_print_quiet (s : String) (w : World) :
    Ends (print s) w (fun _ => w.Sends []) fun x v => x ≠ .fault .inputTooLong ∧ w.Sends [] v := by
  rw [Ends, print, get_bind_apply]
  cases printed? w s with
  | some t => exact .of_does (.trace rfl)
  | none => exact ⟨by decide, .refl w⟩

theorem ends_say_quiet (s : String) (w : World) :
    Ends (say s) w (fun _ => w.Sends []) fun x v => x ≠ .fault .inputTooLong ∧ w.Sends [] v := by
  refine (ends_print_quiet s w).bind fun _ u hu => ?_
  refine (ends_print_quiet "\n" u).mono (fun _ v hv => hu.quiet hv) fun x v hv => ?_
  exact ⟨hv.1, hu.quiet hv.2⟩

end Effect

namespace Conversation

/-! ## Replies that pass -/

/-- The replies that pass come first: after as many requests an exchange is where it would be
without them. -/
theorem exchange_eq_deciding {script : Script} {c : Conversation} (hc : c.script = script)
    (hne : c.messages ≠ []) (shortened : Bool) (w : World) :
    ∃ v, w.Sends (List.replicate (nextHearing script).passed.length c.messages) v ∧
      exchange script shortened ⟨c, w⟩ =
        exchange (deciding script) shortened ⟨{ c with script := deciding script }, v⟩ := by
  induction script generalizing c w with
  | nil =>
    refine ⟨w, .refl w, ?_⟩
    rw [show deciding [] = [] from rfl, ← hc]
  | cons reply rest ih =>
    by_cases ht : reply.isTransient = true
    · have hdeciding : deciding (reply :: rest) = deciding rest := by simp [deciding, ht]
      have hpassed : (nextHearing (reply :: rest)).passed.length =
          1 + (nextHearing rest).passed.length := by
        simp [nextHearing, ht, Nat.add_comm]
      obtain ⟨cause, hwait⟩ := exchange_transient ht hne rest shortened w
      have hsent : w.Sends [c.messages] (w.waiting c.request cause) :=
        ⟨[c.request, .wait 240], by simp [World.waiting], rfl⟩
      obtain ⟨v, hv, hrest⟩ := ih (c := { c with script := rest }) rfl hne
        (w.waiting c.request cause)
      refine ⟨v, ?_, ?_⟩
      · rw [hpassed, ← List.replicate_append_replicate]
        exact hsent.trans hv
      · rw [hwait, hrest, hdeciding]
    · have hdeciding : deciding (reply :: rest) = reply :: rest := by simp [deciding, ht]
      have hpassed : (nextHearing (reply :: rest)).passed = [] := by simp [nextHearing, ht]
      refine ⟨w, ?_, ?_⟩
      · rw [hpassed]
        exact .refl w
      · rw [hdeciding, ← hc]

/-! ## Responses -/

theorem field_apply {d v : Datum} {name : String} (h : d.field? name = some v) (w : World) :
    field d name w = .ok v w := by
  cases d with
  | record fields =>
    have hv : fields.lookup name = some v := h
    rw [field, hv]
    rfl
  | _ => cases h

theorem textOfPart_apply {part : Datum} (h : part.isPart = true) (w : World) :
    textOfPart part w = .ok (part.partText?.getD "") w := by
  cases part with
  | record fields =>
    unfold Datum.isPart at h
    unfold textOfPart Datum.partText? Datum.field?
    dsimp only at h ⊢
    cases hv : fields.lookup "text" with
    | none => rfl
    | some v =>
      rw [hv] at h
      cases v with
      | text s => rfl
      | _ => cases h
  | _ => cases h

theorem textOfParts_apply {parts : List Datum} (h : parts.all Datum.isPart = true) (w : World) :
    textOfParts parts w = .ok (Datum.textOf parts) w := by
  induction parts with
  | nil => rfl
  | cons part parts ih =>
    rw [List.all_cons, Bool.and_eq_true] at h
    have hcons : Datum.textOf (part :: parts) = part.partText?.getD "" ++ Datum.textOf parts := by
      rw [Datum.textOf, List.map_cons, String.join_cons]
      rfl
    rw [textOfParts, Effect.bind_of_ok (textOfPart_apply h.1 w), Effect.bind_of_ok (ih h.2), hcons]
    rfl

theorem lift_bind_of_ok {α β : Type} {e : Effect α} {a : α} {c : Conversation} {w v : World}
    (h : e w = .ok a v) (f : α → Act Conversation β) : (Act.lift e >>= f) ⟨c, w⟩ = f a ⟨c, v⟩ := by
  show EStateM.bind (Act.lift e) f ⟨c, w⟩ = _
  rw [EStateM.bind, Act.lift, h]

/-- A well-formed response is heard, unless it is empty. -/
theorem receive_apply {body m : Datum} {parts : List Datum}
    (hm : (body.field? "output").bind (·.field? "message") = some m)
    (hp : m.parts? = some parts) (hall : parts.all Datum.isPart = true) (c : Conversation)
    (w : World) :
    receive body ⟨c, w⟩ = if parts = [] then .ok "" ⟨c, w⟩
      else .ok (Datum.textOf parts) ⟨c.push (.reply m), w⟩ := by
  obtain ⟨output, hout, hmsg⟩ := Option.bind_eq_some_iff.1 hm
  have hcontent : m.field? "content" = some (.list parts) := by
    unfold Datum.parts? at hp
    cases hf : m.field? "content" with
    | none =>
      rw [hf] at hp
      cases hp
    | some content =>
      rw [hf] at hp
      cases content with
      | list items => rw [Option.some.inj hp]
      | _ => cases hp
  refine (lift_bind_of_ok (field_apply hout w) _).trans ?_
  refine (lift_bind_of_ok (field_apply hmsg w) _).trans ?_
  refine (lift_bind_of_ok (field_apply hcontent w) _).trans ?_
  cases parts with
  | nil => rfl
  | cons part parts =>
    rw [if_neg (List.cons_ne_nil _ _)]
    show Act.lift (textOfParts (part :: parts)) ⟨c.push (.reply m), w⟩ = _
    rw [Act.lift, textOfParts_apply hall]

/-! ## Refusals -/

/-- However the operation ends, its result and what it leaves are in `T`. -/
abbrev EndsIn {α : Type} (act : Act Conversation α) (s : Scene Conversation)
    (T : Except Stop α → Conversation → World → Prop) : Prop :=
  Ends act s (fun a t => T (.ok a) t.focus t.world) fun x t => T (.error x) t.focus t.world

theorem ends_asking {c : Conversation} (hne : c.messages ≠ []) {next : Act Conversation String}
    {w : World} {T : Except Stop String → Conversation → World → Prop} :
    EndsIn (asking next) ⟨c, w⟩ T ↔ EndsIn next ⟨c, w.noting c.request⟩ T := by
  rw [EndsIn, EndsIn, Ends, Ends, asking_of_ne hne]

section Stop

variable {α : Type} {c : Conversation} {w : World}

/-- The conversation is still `c`, and nothing has been sent since `w`. -/
def Idle (c : Conversation) (w : World) (s : Scene Conversation) : Prop :=
  s.focus = c ∧ w.Sends [] s.world

/-- Stopped with the conversation `c` for another reason than its length. -/
def Halted (c : Conversation) (w : World) (x : Stop) (s : Scene Conversation) : Prop :=
  x ≠ .fault .inputTooLong ∧ Idle c w s

theorem brings_say_idle (text : String) :
    Brings (Idle c w) (fun _ => Idle c w) (Halted c w)
      (Act.lift (Effect.say text) : Act Conversation Unit) := by
  rintro s ⟨hc, hw⟩
  refine Act.ends_lift.2 ((Effect.ends_say_quiet text s.world).mono ?_ ?_)
  · intro _ v hv
    exact ⟨hc, hw.quiet hv⟩
  · intro x v hv
    exact ⟨hv.1, hc, hw.quiet hv.2⟩

theorem brings_throw_idle {x : Stop} (hx : x ≠ .fault .inputTooLong) :
    Brings (Idle c w) (fun _ _ => False) (Halted c w) (Act.lift (throw x : Effect α)) :=
  fun _ hs => ⟨hx, hs⟩

theorem brings_closeAndExit_idle :
    Brings (Idle c w) (fun _ _ => False) (Halted c w) (Act.lift (closeAndExit : Effect α)) := by
  rintro s ⟨hc, hw⟩
  exact ⟨by decide, hc, hw.quiet (.of_does (.noting _ .close))⟩

/-- A refusal that rejects no messages stops the exchange, unless it passes. -/
theorem brings_refused_idle {code : String} {message : Option String} (shortened : Bool)
    (ht : (Reply.refusal code message).isTransient = false)
    (hno : (Reply.refusal code message).rejection? = none) :
    Brings (Idle c w) (fun _ _ => False) (Halted c w) (refused code message shortened) := by
  refine .ite (fun _ => ?_) fun _ => .ite (fun h => ?_) fun _ => .ite (fun _ => ?_) fun _ =>
    .ite (fun _ => ?_) fun _ => .ite (fun hcode => ?_) fun _ => brings_throw_idle (by simp)
  · refine Act.brings_focus_bind fun s hs => ?_
    exact (brings_say_idle _).bind fun _ => (brings_say_idle _).bind fun _ =>
      (brings_say_idle _).bind fun _ => brings_closeAndExit_idle
  · -- a code that passes
    exact absurd (ht.symm.trans h) Bool.false_ne_true
  · exact (brings_say_idle _).bind fun _ => (brings_say_idle _).bind fun _ =>
      brings_closeAndExit_idle
  · exact (brings_say_idle _).bind fun _ => (brings_say_idle _).bind fun _ =>
      brings_closeAndExit_idle
  · cases message with
    | none => exact brings_throw_idle (by simp)
    | some text =>
      refine .ite (fun _ => ?_) fun hmodel => .ite (fun _ => ?_) fun hcall => ?_
      · exact (brings_say_idle _).bind fun _ => brings_closeAndExit_idle
      · exact (brings_say_idle _).bind fun _ => (brings_say_idle _).bind fun _ =>
          brings_throw_idle (by simp)
      · rw [Bool.not_eq_true] at hmodel hcall
        have hyes : (Reply.refusal code (some text)).rejection? = some text :=
          Reply.rejection?_eq_some_iff.2 ⟨beq_iff_eq.1 hcode, hmodel, hcall, rfl⟩
        rw [hno] at hyes
        cases hyes

/-- What is done with messages that are rejected. -/
theorem refused_of_rejection {code text : String} {message : Option String}
    (h : (Reply.refusal code message).rejection? = some text) (shortened : Bool) :
    refused code message shortened =
      if shortened && contains "Input is too long for requested model" text.toList then (do
        Act.modifyFocus dropFromMark
        Effect.fail .inputTooLong)
      else if shortened then (do
        Act.modifyFocus keepMarkedOnly
        return .giveUp)
      else (do
        Effect.remark (Colour.yellow.paint "The conversation is way too long, let me shorten it")
        Act.modifyFocus dropBeforeMark
        return .retry true) := by
  cases message with
  | none => cases h
  | some message =>
    obtain ⟨rfl, hmodel, hcall, rfl⟩ := Reply.rejection?_eq_some_iff.1 h
    unfold refused
    rw [if_neg (by decide), if_neg (by decide), if_neg (by decide), if_neg (by decide),
      if_pos (by decide), rejected]
    simp only [hmodel, hcall]
    rfl

end Stop

/-! ## Endings -/

/-- How an exchange ends. -/
inductive Ending
  /-- The message of the last reply, with these parts, is added. -/
  | answered (message : Datum) (parts : List Datum)
  /-- The message of the last reply has no parts. -/
  | silent
  /-- The messages were rejected for the second time. -/
  | rejected
  /-- The messages were rejected for the second time, as too long. -/
  | tooLong
  /-- The exchange was stopped by something else. -/
  | stopped (x : Stop)

/-- A rejection brings no message. -/
theorem message?_of_rejection? {reply : Option Reply} {text : String}
    (h : reply.bind Reply.rejection? = some text) : reply.bind Reply.message? = none := by
  obtain ⟨reply, rfl, hr⟩ := Option.bind_eq_some_iff.1 h
  cases reply with
  | refusal code message => rfl
  | _ => cases hr

namespace Ending

/-- The result of an exchange that ends so. -/
def result : Ending → Except Stop String
  | .answered _ parts => .ok (Datum.textOf parts)
  | .silent => .ok ""
  | .rejected => .ok ""
  | .tooLong => .error (.fault .inputTooLong)
  | .stopped x => .error x

/-- An exchange can end so after this last reply. `shortened` says that messages were rejected
before it. -/
def Follows (shortened : Bool) (reply : Option Reply) : Ending → Prop
  | .answered message parts =>
    reply.bind Reply.message? = some message ∧ message.parts? = some parts ∧ parts ≠ []
  | .silent => ∃ message, reply.bind Reply.message? = some message ∧ message.parts? = some []
  | .rejected => shortened = true ∧ ∃ text, reply.bind Reply.rejection? = some text ∧
      contains "Input is too long for requested model" text.toList = false
  | .tooLong => shortened = true ∧ ∃ text, reply.bind Reply.rejection? = some text ∧
      contains "Input is too long for requested model" text.toList = true
  | .stopped x => reply.bind Reply.message? = none ∧ reply.bind Reply.rejection? = none ∧
      x ≠ .fault .inputTooLong

/-- The ending with this last reply and this result. -/
def of (reply : Option Reply) (r : Except Stop String) : Ending :=
  match reply.bind Reply.message?, r with
  | some message, _ =>
    let parts := message.parts?.getD []
    if parts.isEmpty then .silent else .answered message parts
  | none, .ok _ => .rejected
  | none, .error x => if x = .fault .inputTooLong then .tooLong else .stopped x

/-- The last reply and the result leave no choice. -/
theorem Follows.eq_of {shortened : Bool} {reply : Option Reply} {e : Ending}
    (h : e.Follows shortened reply) : e = of reply e.result := by
  cases e with
  | answered message parts =>
    obtain ⟨hm, hp, hne⟩ := h
    simp [of, hm, hp, hne]
  | silent =>
    obtain ⟨message, hm, hp⟩ := h
    simp [of, hm, hp]
  | rejected =>
    obtain ⟨-, text, ht, -⟩ := h
    simp [of, message?_of_rejection? ht, result]
  | tooLong =>
    obtain ⟨-, text, ht, -⟩ := h
    simp [of, message?_of_rejection? ht, result]
  | stopped x =>
    obtain ⟨hm, -, hx⟩ := h
    simp [of, hm, hx, result]

/-- What an exchange that ends so makes of the conversation that was sent last. -/
def leaves (c : Conversation) : Ending → Conversation
  | .answered message _ => c.push (.reply message)
  | .silent => c
  | .rejected => c.keepMarkedOnly
  | .tooLong => c.dropFromMark
  | .stopped _ => c

end Ending

/-- An exchange sends the conversation `c` in the world `w` for the last time, and ends as it can
after the reply to that. -/
def Settles (c : Conversation) (shortened : Bool) (reply : Option Reply) (w : World)
    (r : Except Stop String) (c' : Conversation) (v : World) : Prop :=
  w.Sends [c.messages] v ∧ ∃ (e : Ending) (rest : Script), e.Follows shortened reply ∧
    r = e.result ∧ c' = e.leaves { c with script := rest }

/-- A well-formed response ends the exchange, whatever replies are left. -/
theorem ends_receive {reply : Reply} {body : Datum}
    (hbody : reply.message? = (body.field? "output").bind (·.field? "message"))
    (hwf : reply.message?.any
      (fun m => m.parts?.any fun parts => parts.all Datum.isPart) = true)
    (c : Conversation) (shortened : Bool) (rest : Script) (w : World) :
    EndsIn (receive body) ⟨{ c with script := rest }, w.noting c.request⟩
      (Settles c shortened (some reply) w) := by
  obtain ⟨m, hm, hparts⟩ := (Option.any_eq_true _ _).1 hwf
  obtain ⟨parts, hp, hall⟩ := (Option.any_eq_true _ _).1 hparts
  rw [EndsIn, Ends, receive_apply (hbody.symm.trans hm) hp hall]
  have hsent := World.Sends.request c w
  by_cases hnil : parts = []
  · rw [if_pos hnil]
    exact ⟨hsent, .silent, rest, ⟨m, hm, hnil ▸ hp⟩, rfl, rfl⟩
  · rw [if_neg hnil]
    exact ⟨hsent, .answered m parts, rest, ⟨hm, hp, hnil⟩, rfl, rfl⟩

/-- The last reply settles the exchange: a response, a refusal, or a rejection that is not the first
one. -/
theorem ends_settling {script : Script} {c : Conversation} (hne : c.messages ≠ [])
    (hscript : ∀ reply ∈ script.head?, reply.isTransient = false ∧ reply.isWellFormed = true)
    {shortened : Bool} (hfirst : shortened = false → script.head?.bind Reply.rejection? = none)
    (w : World) :
    EndsIn (exchange script shortened) ⟨c, w⟩ (Settles c shortened script.head? w) := by
  -- every request is sent before its reply is looked at
  have hsent {v : World} (hv : (w.noting c.request).Sends [] v) : w.Sends [c.messages] v :=
    (World.Sends.request c w).quiet hv
  cases script with
  | nil =>
    refine (ends_asking hne).2
      ⟨hsent (.refl _), .stopped (.fault .noReplyLeft), c.script, ?_, rfl, rfl⟩
    exact ⟨rfl, rfl, by decide⟩
  | cons reply rest =>
    obtain ⟨ht, hwf⟩ := hscript reply rfl
    cases reply with
    | always body => exact (ends_asking hne).2 (ends_receive rfl hwf c shortened c.script w)
    | response body => exact (ends_asking hne).2 (ends_receive rfl hwf c shortened rest w)
    | timeout => cases ht
    | interrupt =>
      refine (ends_asking hne).2
        ⟨hsent (.refl _), .stopped (.fault .interrupted), rest, ?_, rfl, rfl⟩
      exact ⟨rfl, rfl, by decide⟩
    | refusal code message =>
      refine (ends_asking hne).2 (ends_bind.2 (ends_bind.2 ?_))
      cases hreject : (Reply.refusal code message).rejection? with
      | none =>
        have hidle : Idle { c with script := rest } (w.noting c.request)
            ⟨{ c with script := rest }, w.noting c.request⟩ := ⟨rfl, .refl _⟩
        refine (brings_refused_idle shortened ht hreject _ hidle).mono (fun _ _ => False.elim) ?_
        rintro x t ⟨hx, hc, hw⟩
        exact ⟨hsent hw, .stopped x, rest, ⟨rfl, hreject, hx⟩, rfl, hc⟩
      | some text =>
        -- it is not the first rejection
        obtain rfl : shortened = true := by
          cases shortened with
          | true => rfl
          | false =>
            have hno := hfirst rfl
            rw [List.head?_cons, Option.bind_some, hreject] at hno
            cases hno
        rw [refused_of_rejection hreject, Bool.true_and]
        cases hlong : contains "Input is too long for requested model" text.toList with
        | true =>
          rw [if_pos rfl]
          exact ⟨hsent (.refl _), .tooLong, rest, ⟨rfl, text, hreject, hlong⟩, rfl, rfl⟩
        | false =>
          rw [if_neg Bool.false_ne_true, if_pos rfl]
          exact ⟨hsent (.refl _), .rejected, rest, ⟨rfl, text, hreject, hlong⟩, rfl, rfl⟩

/-- The first rejection leads to an exchange with the messages from the mark on. -/
theorem exchange_rejected {reply : Reply} {text : String} (h : reply.rejection? = some text)
    {c : Conversation} (hne : c.messages ≠ []) (rest : Script) (w : World) :
    ∃ v, w.Sends [c.messages] v ∧ exchange (reply :: rest) false ⟨c, w⟩ =
      exchange rest true ⟨dropBeforeMark { c with script := rest }, v⟩ := by
  cases reply with
  | refusal code message =>
    have hends := Effect.does_remark (s := Colour.yellow.paint
      "The conversation is way too long, let me shorten it") (by decide +kernel)
      (w.noting c.request)
    cases hremark : Effect.remark (Colour.yellow.paint
        "The conversation is way too long, let me shorten it") (w.noting c.request) with
    | error x u => exact (hends.of_error hremark).elim
    | ok _ u =>
      refine ⟨u, (World.Sends.request c w).quiet (.of_does (hends.of_ok hremark)), ?_⟩
      have hrefused : refused code message false ⟨{ c with script := rest }, w.noting c.request⟩ =
          .ok (.retry true) ⟨dropBeforeMark { c with script := rest }, u⟩ := by
        rw [refused_of_rejection h, Bool.false_and, if_neg Bool.false_ne_true,
          if_neg Bool.false_ne_true]
        exact lift_bind_of_ok hremark _
      refine (asking_of_ne hne _ w).trans ?_
      show EStateM.bind (refused code message false) _ _ = _
      rw [EStateM.bind, hrefused]
  | _ => cases h

/-! ## The exchange -/

/-- What is left of the messages when those before the mark are taken out. -/
def afterCut (c : Conversation) : List Message :=
  if c.mark = -1 then c.messages else c.messages.drop c.mark.toNat

/-- The messages that are left by an exchange that ends so, where `last` was sent last. -/
def Ending.messages (c : Conversation) (last : List Message) : Ending → List Message
  | .answered message _ => last ++ [.reply message]
  | .silent => last
  | .rejected => if c.mark = -1 then c.messages else c.messages[c.mark.toNat]?.toList
  | .tooLong => if c.mark = -1 then c.messages else []
  | .stopped _ => last

section Exchange

variable {c c' : Conversation} {w w' : World}

theorem exists_markedAt (h : 0 ≤ c.mark ∧ c.mark < c.messages.length) :
    ∃ front m back, MarkedAt front m back c := by
  have hlt : c.mark.toNat < c.messages.length := by omega
  refine ⟨c.messages.take c.mark.toNat, c.messages[c.mark.toNat],
    c.messages.drop (c.mark.toNat + 1), ?_, ?_⟩
  · rw [List.getElem_cons_drop, List.take_append_drop]
  · rw [List.length_take]
    omega

/-- The messages after one hearing. -/
theorem messages_leaves {e : Ending} {reply : Option Reply} (he : e.Follows false reply)
    (rest : Script) :
    (e.leaves { c with script := rest }).messages = e.messages c c.messages := by
  cases e with
  | rejected => cases he.1
  | tooLong => cases he.1
  | _ => rfl

theorem dropBeforeMark_of_unmarked (h : c.mark = -1) : c.dropBeforeMark = c := by
  rw [dropBeforeMark, isMarked_eq_false h, if_neg Bool.false_ne_true]

theorem MarkedAt.afterCut {front back : List Message} {m : Message} (h : MarkedAt front m back c) :
    c.afterCut = m :: back := by
  have hmark : c.mark ≠ -1 := by
    rw [h.mark]
    omega
  rw [Conversation.afterCut, if_neg hmark, h.mark, Int.toNat_natCast, h.messages, List.drop_left]

/-- What is heard a second time. -/
theorem messages_dropBeforeMark (hmark : c.mark = -1 ∨ 0 ≤ c.mark ∧ c.mark < c.messages.length) :
    c.dropBeforeMark.messages = c.afterCut := by
  rcases hmark with hnone | hmark
  · rw [dropBeforeMark_of_unmarked hnone, afterCut, if_pos hnone]
  · obtain ⟨front, m, back, hat⟩ := exists_markedAt hmark
    rw [hat.dropBeforeMark.messages, hat.afterCut, List.nil_append]

/-- What is left after a second hearing. -/
theorem messages_leaves_dropBeforeMark
    (hmark : c.mark = -1 ∨ 0 ≤ c.mark ∧ c.mark < c.messages.length) (e : Ending) (rest : Script) :
    (e.leaves { c.dropBeforeMark with script := rest }).messages = e.messages c c.afterCut ∧
      (e = .tooLong → (e.leaves { c.dropBeforeMark with script := rest }).mark = -1) := by
  have hkept := messages_dropBeforeMark hmark
  cases e with
  | answered message parts =>
    refine ⟨?_, fun h => by cases h⟩
    show c.dropBeforeMark.messages ++ [.reply message] = c.afterCut ++ [.reply message]
    rw [hkept]
  | silent => exact ⟨hkept, fun h => by cases h⟩
  | stopped x => exact ⟨hkept, fun h => by cases h⟩
  | rejected =>
    refine ⟨?_, fun h => by cases h⟩
    rcases hmark with hnone | hmark
    · have hmarked : ({ c with script := rest } : Conversation).isMarked = false :=
        isMarked_eq_false hnone
      rw [dropBeforeMark_of_unmarked hnone, Ending.leaves, keepMarkedOnly, hmarked,
        Ending.messages, if_pos hnone]
      rfl
    · obtain ⟨front, m, back, hat⟩ := exists_markedAt hmark
      have hm : c.messages[c.mark.toNat]? = some m := by
        rw [hat.mark, Int.toNat_natCast, hat.messages]
        simp
      have hcut : MarkedAt [] m back { c.dropBeforeMark with script := rest } :=
        ⟨hat.dropBeforeMark.messages, hat.dropBeforeMark.mark⟩
      rw [Ending.leaves, hcut.keepMarkedOnly.messages, Ending.messages, if_neg (by omega), hm]
      rfl
  | tooLong =>
    rcases hmark with hnone | hmark
    · have hmarked : ({ c with script := rest } : Conversation).isMarked = false :=
        isMarked_eq_false hnone
      rw [dropBeforeMark_of_unmarked hnone, Ending.leaves, dropFromMark, hmarked,
        Ending.messages, if_pos hnone]
      exact ⟨rfl, fun _ => hnone⟩
    · obtain ⟨front, m, back, hat⟩ := exists_markedAt hmark
      have hcut : MarkedAt [] m back { c.dropBeforeMark with script := rest } :=
        ⟨hat.dropBeforeMark.messages, hat.dropBeforeMark.mark⟩
      rw [Ending.leaves, hcut.dropFromMark, Ending.messages, if_neg (by omega)]
      exact ⟨rfl, fun _ => rfl⟩

/-- What is sent in a whole exchange. -/
def sends (c : Conversation) : List (List Message) :=
  List.replicate ((nextHearing c.script).passed.length + 1) c.messages ++
    if isReheard c.script then
      List.replicate ((lastHearing c.script).passed.length + 1) c.afterCut
    else []

/-- What was sent last. -/
def heardLast (c : Conversation) : List Message :=
  if isReheard c.script then c.afterCut else c.messages

/-- The first reply that does not pass. -/
theorem head?_deciding {script : Script} (hscript : ∀ reply ∈ script, reply.isWellFormed = true) :
    ∀ reply ∈ (deciding script).head?,
      reply.isTransient = false ∧ reply.isWellFormed = true := by
  intro reply hreply
  have hmem : reply ∈ script.dropWhile Reply.isTransient := List.mem_of_head? hreply
  have hhead := List.head?_dropWhile_not Reply.isTransient script
  rw [Option.mem_def] at hreply
  unfold deciding at hreply
  rw [hreply] at hhead
  exact ⟨by simpa using hhead, hscript reply ((List.dropWhile_sublist _).subset hmem)⟩

theorem afterCut_ne_nil (hne : c.messages ≠ [])
    (hmark : c.mark = -1 ∨ 0 ≤ c.mark ∧ c.mark < c.messages.length) : c.afterCut ≠ [] := by
  rcases hmark with hnone | hmark
  · rw [afterCut, if_pos hnone]
    exact hne
  · obtain ⟨front, m, back, hat⟩ := exists_markedAt hmark
    rw [hat.afterCut]
    exact List.cons_ne_nil m back

/-- How an exchange that has something to send ends. -/
def Concludes (c : Conversation) (w : World) (r : Except Stop String) (c' : Conversation)
    (v : World) : Prop :=
  w.Sends c.sends v ∧ ∃ e : Ending,
    e.Follows (isReheard c.script) (lastHearing c.script).reply ∧ r = e.result ∧
      c'.messages = e.messages c c.heardLast ∧ (e = .tooLong → c'.mark = -1)

/-- One hearing. -/
theorem concludes_of_settles (hno : isReheard c.script = false) {rest : Script} {v u : World}
    {r : Except Stop String}
    (hv : w.Sends (List.replicate (nextHearing c.script).passed.length c.messages) v)
    (h : Settles { c with script := rest } false (deciding c.script).head? v r c' u) :
    Concludes c w r c' u := by
  obtain ⟨hu, e, rest, he, rfl, rfl⟩ := h
  have hlast : lastHearing c.script = nextHearing c.script := by rw [lastHearing, hno]; rfl
  have hheard : c.heardLast = c.messages := by rw [heardLast, hno]; rfl
  have hsends : c.sends =
      List.replicate (nextHearing c.script).passed.length c.messages ++ [c.messages] := by
    rw [sends, hno, if_neg Bool.false_ne_true, List.append_nil, List.replicate_succ']
  refine ⟨hsends ▸ hv.trans hu, e, ?_, rfl, ?_, ?_⟩
  · rw [hno, hlast]
    exact he
  · rw [hheard]
    exact messages_leaves he rest
  · rintro rfl
    cases he.1

/-- Two hearings. -/
theorem concludes_of_settles_cut
    (hmark : c.mark = -1 ∨ 0 ≤ c.mark ∧ c.mark < c.messages.length)
    (hre : isReheard c.script = true) {reply : Reply} {rest rest' : Script}
    (hd : deciding c.script = reply :: rest) {v u u' : World} {r : Except Stop String}
    (hv : w.Sends
      (List.replicate (nextHearing c.script).passed.length c.messages ++ [c.messages]) v)
    (hu : v.Sends (List.replicate (nextHearing rest).passed.length c.afterCut) u)
    (h : Settles { c.dropBeforeMark with script := rest' } true (deciding rest).head? u r c' u') :
    Concludes c w r c' u' := by
  obtain ⟨hu', e, rest', he, rfl, rfl⟩ := h
  have hlast : lastHearing c.script = nextHearing rest := by
    rw [lastHearing, hre, if_pos rfl, hd]
    rfl
  have hheard : c.heardLast = c.afterCut := by rw [heardLast, hre]; rfl
  have hkept : c.dropBeforeMark.messages = c.afterCut := messages_dropBeforeMark hmark
  have hsends : c.sends =
      List.replicate (nextHearing c.script).passed.length c.messages ++ [c.messages] ++
        (List.replicate (nextHearing rest).passed.length c.afterCut ++
          [c.dropBeforeMark.messages]) := by
    rw [sends, hre, if_pos rfl, hlast, hkept, List.replicate_succ', List.replicate_succ']
  obtain ⟨hmessages, hlong⟩ := messages_leaves_dropBeforeMark hmark e rest'
  refine ⟨hsends ▸ hv.trans (hu.trans hu'), e, ?_, rfl, ?_, hlong⟩
  · rw [hre, hlast]
    exact he
  · rw [hheard]
    exact hmessages

theorem ends_exchange_concludes (hne : c.messages ≠ [])
    (hmark : c.mark = -1 ∨ 0 ≤ c.mark ∧ c.mark < c.messages.length)
    (hscript : ∀ reply ∈ c.script, reply.isWellFormed = true) (w : World) :
    EndsIn (exchange c.script false) ⟨c, w⟩ (Concludes c w) := by
  obtain ⟨v, hv, hpass⟩ := exchange_eq_deciding (c := c) rfl hne false w
  rw [EndsIn, Ends, hpass]
  have hhead := head?_deciding hscript
  cases hre : isReheard c.script with
  | false =>
    have hfirst : (deciding c.script).head?.bind Reply.rejection? = none := by
      simpa [isReheard, Hearing.rejection?, nextHearing] using hre
    exact (ends_settling (c := { c with script := deciding c.script }) hne hhead (fun _ => hfirst)
      v).mono (fun _ _ => concludes_of_settles hre hv) fun _ _ => concludes_of_settles hre hv
  | true =>
    cases hd : deciding c.script with
    | nil => simp [isReheard, Hearing.rejection?, nextHearing, hd] at hre
    | cons reply rest =>
      obtain ⟨text, htext⟩ : ∃ text, reply.rejection? = some text := by
        simpa [isReheard, Hearing.rejection?, nextHearing, hd, Option.isSome_iff_exists] using hre
      obtain ⟨u, hu, hreject⟩ := exchange_rejected htext
        (c := { c with script := reply :: rest }) hne rest v
      have hcut : dropBeforeMark { c with script := rest } =
          { c.dropBeforeMark with script := rest } := keepsScript_dropBeforeMark c rest
      have hkept := messages_dropBeforeMark hmark
      obtain ⟨t, ht, hagain⟩ := exchange_eq_deciding (c := { c.dropBeforeMark with script := rest })
        rfl (by rw [hkept]; exact afterCut_ne_nil hne hmark) true u
      have hrest : ∀ reply ∈ rest, reply.isWellFormed = true := by
        intro x hx
        refine hscript x ((List.dropWhile_sublist Reply.isTransient).subset ?_)
        rw [show c.script.dropWhile Reply.isTransient = reply :: rest from hd]
        exact List.mem_cons_of_mem _ hx
      have hsettle := ends_settling (c := { c.dropBeforeMark with script := deciding rest })
        (by rw [hkept]; exact afterCut_ne_nil hne hmark) (head?_deciding hrest)
        (fun h : true = false => by cases h) t
      rw [hreject, hcut, hagain]
      have hend : ∀ {r : Except Stop String} {c' : Conversation} {t' : World},
          Settles { c.dropBeforeMark with script := deciding rest } true (deciding rest).head? t r
            c' t' → Concludes c w r c' t' :=
        concludes_of_settles_cut hmark hre hd (hv.trans hu) (by rwa [← hkept])
      exact hsettle.mono (fun _ _ => hend) fun _ _ => hend

/-- What comes from the mark on is among the messages that were sent last. -/
theorem afterCut_suffix_heardLast (c : Conversation) : c.afterCut <:+ c.heardLast := by
  have hall : c.afterCut <:+ c.messages := by
    by_cases hnone : c.mark = -1
    · have hsame : c.afterCut = c.messages := if_pos hnone
      exact hsame ▸ List.suffix_refl _
    · have hdrop : c.afterCut = c.messages.drop c.mark.toNat := if_neg hnone
      exact hdrop ▸ List.drop_suffix _ _
  unfold heardLast
  cases isReheard c.script with
  | true => exact List.suffix_refl _
  | false => exact hall

/-- Only a second rejection takes out messages from the mark on. -/
theorem Ending.keeps {e : Ending}
    (h : e.Follows (isReheard c.script) (lastHearing c.script).reply) :
    isReheard c.script = true ∧ (lastHearing c.script).rejection?.isSome = true ∨
      c.afterCut <:+: e.messages c c.heardLast := by
  have hkept := (afterCut_suffix_heardLast c).isInfix
  cases e with
  | answered message parts => exact .inr (hkept.trans (List.prefix_append _ _).isInfix)
  | silent => exact .inr hkept
  | stopped x => exact .inr hkept
  | rejected =>
    obtain ⟨hre, text, htext, -⟩ := h
    exact .inl ⟨hre, Option.isSome_iff_exists.2 ⟨text, htext⟩⟩
  | tooLong =>
    obtain ⟨hre, text, htext, -⟩ := h
    exact .inl ⟨hre, Option.isSome_iff_exists.2 ⟨text, htext⟩⟩

/-- Without messages nothing is sent and nothing changes. -/
theorem ends_exchange_nil (h : c.messages = []) (script : Script) (w : World) :
    EndsIn (exchange script false) ⟨c, w⟩ fun r c' v => r = .ok "" ∧ c' = c ∧ w.Sends [] v := by
  obtain ⟨next, hnext⟩ := exists_asking script false
  rw [EndsIn, Ends, hnext, asking_of_nil h]
  refine ends_bind.2 (Act.ends_lift.2 ((Effect.does_remark (by decide +kernel) w).mono ?_ ?_))
  · intro _ v hv
    exact ⟨rfl, rfl, .of_does hv⟩
  · intro _ _ hno
    exact hno.elim

/-- How an exchange ends, for every conversation whose mark is none or the number of a message, and
for every script of well-formed replies. Without messages nothing is sent. Otherwise all messages
are sent until a reply does not pass, and, if that rejects them, those from the mark on are sent in
the same way. The last reply decides between the endings, of which there is exactly one; unless it
is a second rejection, no message from the mark on is lost. -/
theorem ask_outcome {r : Except Stop String}
    (hmark : c.mark = -1 ∨ 0 ≤ c.mark ∧ c.mark < c.messages.length)
    (hscript : ∀ reply ∈ c.script, reply.isWellFormed = true)
    (hrun : ask.runOn c w = (r, c', w')) :
    (c.messages = [] → r = .ok "" ∧ c' = c ∧ w.Sends [] w') ∧
      (c.messages ≠ [] →
        w.Sends c.sends w' ∧
        (∃! e : Ending, e.Follows (isReheard c.script) (lastHearing c.script).reply ∧
          r = e.result ∧ c'.messages = e.messages c c.heardLast ∧
          (e = .tooLong → c'.mark = -1)) ∧
        (isReheard c.script = true ∧ (lastHearing c.script).rejection?.isSome = true ∨
          c.afterCut <:+: c'.messages)) := by
  refine ⟨fun hnil => ?_, fun hne => ?_⟩
  · have hask : EndsIn ask ⟨c, w⟩ fun r c' v => r = .ok "" ∧ c' = c ∧ w.Sends [] v :=
      ends_exchange_nil hnil c.script w
    exact Act.of_runOn_result (T := fun r c' v => r = .ok "" ∧ c' = c ∧ w.Sends [] v) hask hrun
  · have hask : EndsIn ask ⟨c, w⟩ (Concludes c w) := ends_exchange_concludes hne hmark hscript w
    obtain ⟨hsent, e, he, hr, hmessages, hlong⟩ := Act.of_runOn_result hask hrun
    refine ⟨hsent, ⟨e, ⟨he, hr, hmessages, hlong⟩, ?_⟩, ?_⟩
    · rintro e' ⟨he', hr', -, -⟩
      rw [he'.eq_of, he.eq_of, ← hr', ← hr]
    · rw [hmessages]
      exact Ending.keeps he

end Exchange

/-- A conversation with its second message marked, whose client rejects the messages once, and is
late before and after that. -/
def rejectedOnce : Conversation where
  messages := [.user [.text "Hi"], .user [.text "File"], .user [.text "Look"]]
  mark := 1
  promptDir := "prompts/"
  system := [""]
  model := .text "m"
  region := none
  script := [.timeout, .refusal "ValidationException" (some "no"), .timeout,
    .response (Datum.saying "ok")]

theorem exists_runOn {α : Type} (act : Act Conversation α) (c : Conversation) (w : World) :
    ∃ r c' w', act.runOn c w = (r, c', w') := ⟨_, _, _, rfl⟩

/-- All three messages are sent twice, then the last two of them twice, and the answer is added to
these. -/
theorem ask_outcome_rejected_once :
    ∃ r c' w', ask.runOn rejectedOnce (World.ofFiles []) = (r, c', w') ∧
      r.toOption = some "ok" ∧ c'.messages.length = 3 ∧
      rejectedOnce.sends.map List.length = [3, 3, 2, 2] ∧
      (World.ofFiles []).Sends rejectedOnce.sends w' ∧
      (∃! e : Ending, e.Follows true (lastHearing rejectedOnce.script).reply ∧
        r = e.result ∧ c'.messages = e.messages rejectedOnce rejectedOnce.heardLast ∧
        (e = .tooLong → c'.mark = -1)) ∧
      rejectedOnce.afterCut <:+: c'.messages := by
  obtain ⟨r, c', w', hrun⟩ := exists_runOn ask rejectedOnce (World.ofFiles [])
  have heval : (ask.runOn rejectedOnce (World.ofFiles [])).1.toOption = some "ok" ∧
      (ask.runOn rejectedOnce (World.ofFiles [])).2.1.messages.length = 3 := by decide +kernel
  rw [hrun] at heval
  obtain ⟨hsent, hend, hkept⟩ := (ask_outcome (by decide) (by decide) hrun).2 (List.cons_ne_nil _ _)
  have hre : isReheard rejectedOnce.script = true := by decide +kernel
  have hlast : (lastHearing rejectedOnce.script).rejection?.isSome = false := by decide +kernel
  rw [hre] at hend
  refine ⟨r, c', w', hrun, heval.1, heval.2, by decide +kernel, hsent, hend, ?_⟩
  exact hkept.resolve_left fun h => absurd (hlast.symm.trans h.2) Bool.false_ne_true

end Conversation

end Covenant
