import Covenant.Proofs.Conversation.Answer

/-!
# What a request comes to

An exchange that returns has used up some replies of its client: those that pass, the first
rejection, and the reply that decides, which is an answer or a second rejection. `Script.Yields`
says so of the replies alone, whatever the conversation and the world (`ends_exchange_used`). The
other operations on a conversation leave the replies as they are (`Act.Turns`).
-/

namespace Covenant

open Text

/-! ## Replies that are used up -/

namespace Script

/-- An exchange with this client returns the text, and the client has the last script left.
`shortened` says that the messages were rejected before. -/
inductive Yields : Bool → Script → String → Script → Prop
  | answered {shortened : Bool} {script rest : Script} {a : Answer} (h : Next script a rest) :
    Yields shortened script a.text rest
  | passed {shortened : Bool} {reply : Reply} {script rest : Script} {text : String}
    (h : reply.isTransient = true) (tail : Yields shortened script text rest) :
    Yields shortened (reply :: script) text rest
  | rejected {reply : Reply} {script rest : Script} {reason text : String}
    (h : reply.rejection? = some reason) (tail : Yields true script text rest) :
    Yields false (reply :: script) text rest
  | givenUp {reply : Reply} {reason : String} (rest : Script) (h : reply.rejection? = some reason)
    (hlong : contains "Input is too long for requested model" reason.toList = false) :
    Yields true (reply :: rest) "" rest

/-- Exchanges with this client, one after the other, return these texts. -/
inductive Exchanges : Script → List String → Script → Prop
  | nil (script : Script) : Exchanges script [] script
  | concat {script next rest : Script} {texts : List String} {text : String}
    (init : Exchanges script texts next) (last : Yields false next text rest) :
    Exchanges script (texts ++ [text]) rest

end Script

namespace Conversation

variable {c : Conversation} {w : World}

/-- The marked message is kept, so there is one if there was one. -/
theorem dropBeforeMark_ne_nil (h : c.messages ≠ []) : c.dropBeforeMark.messages ≠ [] := by
  have hpos : 0 < c.messages.length := List.length_pos_iff.2 h
  unfold dropBeforeMark
  cases hmarked : c.isMarked with
  | false => exact h
  | true =>
    have hcut : nearest c.messages.length c.mark < c.messages.length := by
      unfold isMarked at hmarked
      unfold nearest
      rw [Bool.and_eq_true, bne_iff_ne, decide_eq_true_iff] at hmarked
      by_cases hneg : c.mark < 0
      · rw [if_pos hneg]
        omega
      · rw [if_neg hneg]
        omega
    show c.fromMark ≠ []
    rw [fromMark, if_pos hmarked, ← List.length_pos_iff, List.length_drop]
    omega

/-- What is known of an exchange that ends so, if it returns. -/
def Used (shortened : Bool) (script : Script) (r : Except Stop String) (c : Conversation)
    (_ : World) : Prop :=
  ∀ text, r = .ok text → Script.Yields shortened script text c.script

theorem used_error {shortened : Bool} {script : Script} (x : Stop) :
    Used shortened script (.error x) c w := by
  intro text h
  cases h

theorem used_ok {shortened : Bool} {script : Script} {text : String}
    (h : Script.Yields shortened script text c.script) : Used shortened script (.ok text) c w := by
  rintro _ ⟨⟩
  exact h

/-- A response that is taken is the next answer. -/
theorem ends_receive_used {body : Datum} {script : Script} {shortened : Bool}
    (hnext : ∀ a, Gives (receive body) a → Script.Next script a c.script) :
    EndsIn (receive body) ⟨c, w⟩ (Used shortened script) := by
  obtain ⟨a, ha⟩ | hstop := unvarying_receive body
  · rw [EndsIn, Ends, ha]
    exact used_ok (.answered (hnext a ha))
  · obtain ⟨x, t, hx⟩ := hstop c w
    rw [EndsIn, Ends, hx]
    exact used_error x

/-- A refusal ends the exchange, unless it passes or is the first rejection. -/
theorem ends_refusal_used {code : String} {message : Option String} {shortened : Bool}
    (ht : (Reply.refusal code message).isTransient = false)
    (hfirst : shortened = false → (Reply.refusal code message).rejection? = none)
    (hne : c.messages ≠ []) (rest : Script) :
    EndsIn (exchange (.refusal code message :: rest) shortened) ⟨c, w⟩
      (Used shortened (.refusal code message :: rest)) := by
  refine (ends_asking hne).2 (ends_bind.2 (ends_bind.2 ?_))
  cases hreject : (Reply.refusal code message).rejection? with
  | none =>
    have hidle : Idle { c with script := rest } (w.noting c.request)
        ⟨{ c with script := rest }, w.noting c.request⟩ := ⟨rfl, .refl _⟩
    exact (brings_refused_idle shortened ht hreject _ hidle).mono (fun _ _ => False.elim)
      fun x _ _ => used_error x
  | some reason =>
    obtain rfl : shortened = true := by
      cases shortened with
      | true => rfl
      | false => cases hreject.symm.trans (hfirst rfl)
    rw [refused_of_rejection hreject, Bool.true_and]
    cases hlong : contains "Input is too long for requested model" reason.toList with
    | true =>
      rw [if_pos rfl]
      exact used_error (w := w) _
    | false =>
      rw [if_neg Bool.false_ne_true, if_pos rfl]
      refine used_ok (w := w) ?_
      show Script.Yields true _ "" (keepMarkedOnly { c with script := rest }).script
      rw [keepsScript_keepMarkedOnly.script]
      exact .givenUp rest hreject hlong

/-- An exchange that returns has used up what it needs of the replies. -/
theorem ends_exchange_used {script : Script} (shortened : Bool) (hc : c.script = script)
    (hne : c.messages ≠ []) :
    EndsIn (exchange script shortened) ⟨c, w⟩ (Used shortened script) := by
  induction script generalizing c w shortened with
  | nil => exact (ends_asking hne).2 (used_error (w := w) _)
  | cons reply rest ih =>
    by_cases ht : reply.isTransient = true
    · obtain ⟨cause, hwait⟩ := exchange_transient ht hne rest shortened w
      rw [EndsIn, Ends, hwait]
      have hrest := ih (c := { c with script := rest }) (w := w.waiting c.request cause) shortened
        rfl hne
      exact hrest.mono (fun _ _ h text hr => .passed ht (h text hr)) fun x _ _ => used_error x
    · rw [Bool.not_eq_true] at ht
      cases reply with
      | always body =>
        refine (ends_asking hne).2 (ends_receive_used fun a ha => ?_)
        rw [hc]
        exact .always ha
      | response body =>
        exact (ends_asking hne).2
          (ends_receive_used (c := { c with script := rest }) fun _ => .response)
      | timeout => cases ht
      | interrupt => exact (ends_asking hne).2 (used_error (w := w) _)
      | refusal code message =>
        cases hreject : (Reply.refusal code message).rejection? with
        | none => exact ends_refusal_used ht (fun _ => hreject) hne rest
        | some reason =>
          cases shortened with
          | true => exact ends_refusal_used ht (fun h => by cases h) hne rest
          | false =>
            obtain ⟨v, -, hshort⟩ := exchange_rejected hreject hne rest w
            rw [EndsIn, Ends, hshort]
            have hrest := ih (c := dropBeforeMark { c with script := rest }) (w := v) true
              (script_dropBeforeMark _) (dropBeforeMark_ne_nil hne)
            exact hrest.mono (fun _ _ h text hr => .rejected hreject (h text hr))
              fun x _ _ => used_error x

end Conversation

/-! ## Operations that return -/

namespace Act

variable {σ α β : Type} {host : Host} {p p' : σ → Prop} {q q' : α → σ → Prop} {r : β → σ → Prop}

/-- Whenever the operation returns from a focus in `p`, its result and the focus are in `q`. The
surroundings are `host` before and after it. -/
def Turns (host : Host) (p : σ → Prop) (q : α → σ → Prop) (act : Act σ α) : Prop :=
  Brings (fun s => s.world.toHost = host ∧ p s.focus)
    (fun a t => t.world.toHost = host ∧ q a t.focus) (fun _ _ => True) act

theorem Turns.mono {act : Act σ α} (h : Turns host p q act) (hp : ∀ x, p' x → p x)
    (hq : ∀ a x, q a x → q' a x) : Turns host p' q' act :=
  Brings.mono h (fun s => And.imp_right (hp s.focus)) (fun a t => And.imp_right (hq a t.focus))
    fun _ _ _ => trivial

theorem Turns.bind {act : Act σ α} {f : α → Act σ β} (h : Turns host p q act)
    (hf : ∀ a, Turns host (q a) r (f a)) : Turns host p r (act >>= f) := Brings.bind h hf

theorem turns_pure {a : α} (h : ∀ x, p x → q a x) : Turns host p q (pure a) :=
  .pure fun s => And.imp_right (h s.focus)

/-- What only concerns the world leaves the focus as it is. -/
theorem turns_lift {e : Effect α} (he : e.Leads fun _ => True) :
    Turns host p (fun _ => p) (lift e) := fun s hs =>
  ends_lift.2 ((he s.world).mono (fun _ _ hl => ⟨hl.host.trans hs.1, hs.2⟩) fun _ _ _ => trivial)

theorem turns_get_bind {f : Scene σ → Act σ β}
    (h : ∀ s, s.world.toHost = host → p s.focus → Turns host p r (f s)) :
    Turns host p r (get >>= f) := .get_bind fun s hs => h s hs.1 hs.2

theorem turns_modifyFocus {f : σ → σ} {r : Unit → σ → Prop} (h : ∀ x, p x → r () (f x)) :
    Turns host p r (modifyFocus f) := fun s hs => ⟨hs.1, h s.focus hs.2⟩

theorem turns_focus_bind {f : σ → Act σ β} (h : ∀ x, p x → Turns host p r (f x)) :
    Turns host p r (focus >>= f) := brings_focus_bind fun s hs => h s.focus hs.2

theorem turns_throw {x : Stop} : Turns host p q (lift (throw x)) := fun _ _ => trivial

theorem Turns.ite {b : Prop} [Decidable b] {act act' : Act σ α} (h : Turns host p q act)
    (h' : Turns host p q act') : Turns host p q (if b then act else act') :=
  Brings.ite (fun _ => h) fun _ => h'

end Act

namespace Conversation

open Act

section

variable {host : Host} {P : Script → Prop}

/-- The replies that are left are in `P`. -/
def Holding (P : Script → Prop) (c : Conversation) : Prop := P c.script

/-- There are messages to send, and the replies that are left are in `P`. -/
def Prepared (P : Script → Prop) (c : Conversation) : Prop := P c.script ∧ c.messages ≠ []

theorem Holding.push {c : Conversation} (h : c.Holding P) (m : Message) : (c.push m).Prepared P :=
  ⟨h, by simp⟩

theorem turns_add {p : Conversation → Prop} (h : ∀ c, p c → c.Holding P) (parts : List Part) :
    Turns host p (fun _ => Prepared P) (add parts) :=
  turns_modifyFocus fun c hc => (h c hc).push (.user parts)

theorem turns_tell {text : String} (h : text ≠ "") :
    Turns host (Holding P) (fun _ => Prepared P) (tell text) := by
  unfold tell tellBoth
  rw [if_pos (bne_iff_ne.2 h)]
  exact (turns_add (fun _ => id) _).bind fun _ => turns_pure fun _ => id

theorem turns_tellBoth (text file : String) :
    Turns host (Prepared P) (fun _ => Prepared P) (tellBoth text file) := by
  have hadd (parts : List Part) : Turns host (Prepared P) (fun _ => Prepared P) (add parts) :=
    turns_add (fun _ hc => hc.1) parts
  have hprompt : Turns host (Prepared P) (fun _ => Prepared P) (tellBoth "" file) := by
    refine .ite (turns_focus_bind fun c _ => ?_) (turns_pure fun _ => id)
    exact (turns_lift (Effect.leads_readText _)).bind fun _ => hadd _
  unfold tellBoth
  by_cases htext : (text != "") = true
  · rw [if_pos htext]
    exact (hadd _).bind fun _ => hprompt
  · rw [if_neg htext]
    exact hprompt

theorem turns_attachWith (text path : String) :
    Turns host (Holding P) (fun _ => Prepared P) (attachWith text path) :=
  (turns_lift (leads_documentOf path)).bind fun _ => turns_add (fun _ => id) _

theorem turns_setSystem (text file : String) :
    Turns host (Holding P) (fun _ => Holding P) (setSystem text file) := by
  refine .ite (turns_modifyFocus fun _ => id) (.ite (turns_focus_bind fun c _ => ?_)
    (turns_pure fun _ => id))
  exact (turns_lift (Effect.leads_readText _)).bind fun _ => turns_modifyFocus fun _ => id

theorem turns_dropMarked : Turns host (Holding P) (fun _ => Holding P) dropMarked := by
  refine turns_focus_bind fun c hc => ?_
  cases h : c.withoutMarked with
  | error f => exact turns_throw
  | ok d =>
    refine turns_modifyFocus fun _ _ => ?_
    show P d.script
    rw [script_withoutMarked h]
    exact hc

theorem turns_markLast : Turns host (Prepared P) (fun _ => Prepared P) (modifyFocus markLast) :=
  turns_modifyFocus fun _ => id

/-- A request uses up what it needs of the replies. -/
theorem turns_ask :
    Turns host (Prepared P)
      (fun text c => ∃ script, P script ∧ Script.Yields false script text c.script) ask := by
  rintro ⟨c, w⟩ ⟨hhost, hP, hne⟩
  have hused := ends_exchange_used (w := w) false rfl hne
  have hleads := leads_ask stable_true.toResumes ⟨c, w⟩ rfl trivial
  exact (Ends.and hused hleads).mono
    (fun text _ ht => ⟨ht.2.2.host.trans hhost, c.script, hP, ht.1 text rfl⟩) fun _ _ _ => trivial

end

end Conversation

end Covenant
