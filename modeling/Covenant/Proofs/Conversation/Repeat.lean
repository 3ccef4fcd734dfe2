import Covenant.Proofs.Conversation.Exchange
import Covenant.Proofs.World.Pair

/-!
# Replies that pass

A request that times out, or is refused with a code that passes, is repeated after a pause. So a
script with more replies of this kind leads to the same conversation: besides the replies that are
left, two runs differ in the repeated requests, the pauses before them and the notices about these
(`mirrors_ask`). One more reply that is used up makes one repetition.
-/

namespace Covenant

/-! ## More replies, requests and notices -/

/-- Whether the request timed out, or was refused with a code that passes. -/
def Reply.isTransient : Reply → Bool
  | .timeout => true
  | .refusal code _ =>
    ["ThrottlingException", "ServiceUnavailableException", "ReadTimeoutError"].elem code
  | _ => false

/-- The second script is the first with `k` more replies that pass. -/
inductive Delayed : Nat → Script → Script → Prop
  | nil : Delayed 0 [] []
  | keep {k : Nat} {script script' : Script} (r : Reply) (h : Delayed k script script') :
      Delayed k (r :: script) (r :: script')
  | insert {k : Nat} {script script' : Script} {r : Reply} (hr : r.isTransient = true)
      (h : Delayed k script script') : Delayed (k + 1) script (r :: script')

/-- Attempts at a request, each followed by a pause of four minutes. -/
def attempts (e : Event) : Nat → List Event
  | 0 => []
  | m + 1 => attempts e m ++ [e, .wait 240]

/-- The second events are the first ones, but before a request there may be attempts at the same
request, `n` in all. -/
inductive Repeats (past : List Event) : Nat → List Event → List Event → Prop
  | start : Repeats past 0 past past
  | note {n : Nat} {es es' : List Event} (e : Event) (h : Repeats past n es es') :
      Repeats past n (es ++ [e]) (es' ++ [e])
  | request {n : Nat} {es es' : List Event} (m : Nat) (model : Entry) (system : List String)
      (messages : List Message) (mark : Int) (h : Repeats past n es es') :
      Repeats past (n + m) (es ++ [.request model system messages mark])
        (es' ++ (attempts (.request model system messages mark) m ++
          [.request model system messages mark]))

/-- The notice about a pause. -/
def notice (cause : String) : String :=
  "Throttling (" ++ cause ++ ")... let me wait and try again in 4 minutes"

/-- The second output is the first with `n` more notices. -/
inductive Noticed : Nat → String → String → Prop
  | refl (out : String) : Noticed 0 out out
  | append {n : Nat} {out out' : String} (t : String) (h : Noticed n out out') :
      Noticed n (out ++ t) (out' ++ t)
  | notice {n : Nat} {out out' : String} (cause : String) (h : Noticed n out out') :
      Noticed (n + 1) out (out' ++ notice cause ++ "\n")

theorem Noticed.eq_of_zero {out out' : String} (h : Noticed 0 out out') : out' = out := by
  generalize hn : 0 = n at h
  induction h with
  | refl out => rfl
  | append t _ ih => rw [ih hn]
  | notice cause _ _ => cases hn

/-! ## Plain texts

A text without an escape character has no styles and no commands, so every output shows it as it
is. -/

namespace Text

variable {s : List Char}

theorem afterStyle?_eq_none (h : '\x1b' ∉ s) (digits : DigitTable) :
    afterStyle? digits s = none := by
  unfold afterStyle?
  split
  · simp at h
  · simp at h
  · rfl

theorem afterCommand?_eq_none (h : '\x1b' ∉ s) : afterCommand? s = none := by
  unfold afterCommand?
  split
  · simp at h
  · simp at h
  · rfl

theorem dropStyles_eq_self (h : '\x1b' ∉ s) (digits : DigitTable) : dropStyles digits s = s := by
  induction s with
  | nil => rw [dropStyles]
  | cons c r ih =>
    rw [dropStyles]
    split
    · next hstyle => cases (afterStyle?_eq_none h digits).symm.trans hstyle
    · rw [ih (List.not_mem_of_not_mem_cons h)]

theorem commandsFrom_eq_nil (h : '\x1b' ∉ s) (n : Nat) : commandsFrom n s = [] := by
  induction s generalizing n with
  | nil => rw [commandsFrom]
  | cons c r ih =>
    rw [commandsFrom]
    split
    · next hcommand => cases (afterCommand?_eq_none h).symm.trans hcommand
    · exact ih (List.not_mem_of_not_mem_cons h) (n + 1)

theorem plain?_eq_self (h : '\x1b' ∉ s) (digits : DigitTable) : plain? digits s = some s := by
  have hnone := commandsFrom_eq_nil h 0
  have htitle : setsTitle s = false := by
    rw [setsTitle, hnone]
    rfl
  have hcut : cutCommands s = s := by
    rw [cutCommands, hnone]
    rfl
  rw [plain?, htitle, if_neg Bool.false_ne_true, hcut, dropStyles_eq_self h]

end Text

/-! ## The world -/

/-- The worlds differ in the scripts, which are in `S`, the events, which are in `G`, and the
output, where the second one has `n` more notices if they are printed at all. -/
def World.Lags (S : List Script → List Script → Prop) (G : List Event → List Event → Prop) (n : Nat)
    (w w' : World) : Prop :=
  ∃ scripts out events,
    w' = { w with scripts := scripts, trace := { w.trace with out := out, events := events } } ∧
    S w.scripts scripts ∧ G w.trace.events events ∧
    Noticed (if w.settings.verbose then n else 0) w.trace.out out

section World

variable {S : List Script → List Script → Prop} {G : List Event → List Event → Prop} {n : Nat}
  {w w' : World}

theorem World.Lags.sim (h : w.Lags S G n w') : w.Sim w' := by
  obtain ⟨scripts, out, events, rfl, -⟩ := h
  exact ⟨scripts, _, rfl⟩

theorem World.Lags.plain (h : w.Lags S G n w') (b : Bool) :
    World.Lags S G n { w with plain := b } { w' with plain := b } := by
  obtain ⟨scripts, out, events, rfl, hrest⟩ := h
  exact ⟨scripts, out, events, rfl, hrest⟩

end World

namespace Effect

variable {α : Type} {S : List Script → List Script → Prop} {G : List Event → List Event → Prop}
  {n : Nat}

theorem mirrors_emit (s : String) :
    Mirrors (World.Lags S G n) (modifyTrace fun t => { t with out := t.out ++ s }) := by
  refine .modify ?_
  rintro w _ ⟨scripts, out, events, rfl, hS, hes, hout⟩
  exact ⟨scripts, out ++ s, events, rfl, hS, hes, hout.append s⟩

theorem mirrors_log (line : String) : Mirrors (World.Lags S G n) (log line) := by
  refine .modify ?_
  rintro w _ ⟨scripts, out, events, rfl, hrest⟩
  exact ⟨scripts, out, events, rfl, hrest⟩

theorem mirrors_setDisk (d : Disk) :
    Mirrors (World.Lags S G n) (modify fun w => { w with disk := d }) := by
  refine .modify ?_
  rintro w _ ⟨scripts, out, events, rfl, hrest⟩
  exact ⟨scripts, out, events, rfl, hrest⟩

theorem mirrors_ofDisk (r : Except DiskFault α) : Mirrors (World.Lags S G n) (ofDisk r) := by
  cases r with
  | error x => exact .throw fun _ _ => id
  | ok a => exact .pure fun _ _ => id

theorem mirrors_modifyDisk (f : Disk → Except DiskFault Disk) :
    Mirrors (World.Lags S G n) (modifyDisk f) := by
  refine .get_bind ?_
  rintro w _ ⟨scripts, out, events, rfl, hrest⟩
  exact (mirrors_ofDisk (f w.disk)).bind fun d => mirrors_setDisk d



theorem mirrors_makeDirectory (path : String) :
    Mirrors (World.Lags S G n) (makeDirectory path) := by
  refine .get_bind ?_
  rintro w _ ⟨scripts, out, events, rfl, hrest⟩
  dsimp only
  cases w.disk.makeDirectory path with
  | mk d fault =>
    refine (mirrors_setDisk d).bind fun _ => ?_
    cases fault with
    | none => exact .pure fun _ _ => id
    | some f => exact .throw fun _ _ => id

variable (hG : ∀ {es es'} e, G es es' → G (es ++ [e]) (es' ++ [e]))

include hG

theorem mirrors_record (e : Event) : Mirrors (World.Lags S G n) (record e) := by
  refine .modify ?_
  rintro w _ ⟨scripts, out, events, rfl, hS, hes, hout⟩
  exact ⟨scripts, out, events ++ [e], rfl, hS, hG e hes, hout⟩

theorem mirrors_recordWrite (path : String) : Mirrors (World.Lags S G n) (recordWrite path) := by
  refine .get_bind ?_
  rintro w _ ⟨scripts, out, events, rfl, hrest⟩
  exact (mirrors_ofDisk (w.disk.read path)).bind fun c => mirrors_record hG _

theorem mirrors_checkout (directory file : String) :
    Mirrors (World.Lags S G n) (checkout directory file) := by
  refine (mirrors_record hG _).bind fun _ => .modify ?_
  rintro w _ ⟨scripts, out, events, rfl, hrest⟩
  exact ⟨scripts, out, events, rfl, hrest⟩

/-- A plain effect does not see what two such worlds differ in. -/
theorem Plain.mirrors {e : Effect α} (h : Plain e) : Mirrors (World.Lags S G n) e := by
  refine Built.mirrors h (fun _ _ => World.Lags.sim) fun α e he => ?_
  cases he with
  | emit s => exact mirrors_emit s
  | log line => exact mirrors_log line
  | record he hn => exact mirrors_record hG _
  | makeDirectory path => exact mirrors_makeDirectory path
  | writeText path text => exact (mirrors_modifyDisk _).bind fun _ => mirrors_record hG _
  | appendText path text =>
    exact (mirrors_modifyDisk _).bind fun _ => mirrors_recordWrite hG path
  | copyOnto source target =>
    exact (mirrors_modifyDisk _).bind fun _ => mirrors_recordWrite hG target
  | copyRights source target => exact mirrors_modifyDisk _
  | checkout directory file => exact mirrors_checkout hG directory file

end Effect

/-! ## Parts of the state -/

/-- Requests were repeated `n` times, and the parts are in `L k`, for `k` more replies that are
left; `N` is how many there were. -/
def Scene.Lags {σ : Type} (past : List Event) (L : Nat → σ → σ → Prop) (N : Nat) (s s' : Scene σ) :
    Prop :=
  ∃ n k, n + k = N ∧ s.world.Lags (fun _ _ => True) (Repeats past n) n s'.world ∧
    L k s.focus s'.focus

section Scene

variable {σ τ α : Type} {past : List Event} {L : Nat → σ → σ → Prop} {N : Nat}

theorem mirrors_lift {e : Effect α}
    (he : ∀ n, Mirrors (World.Lags (fun _ _ => True) (Repeats past n) n) e) :
    Mirrors (Scene.Lags past L N) (Act.lift e) := by
  rintro s s' ⟨n, k, hN, hw, hL⟩
  have hkeep (w w' : World) (hw : w.Lags (fun _ _ => True) (Repeats past n) n w') :
      Scene.Lags past L N { s with world := w } { s' with world := w' } := ⟨n, k, hN, hw, hL⟩
  exact Act.agree_lift ((he n s.world s'.world hw).mono hkeep hkeep)

theorem mirrors_effect {e : Effect α} (he : e.Plain) :
    Mirrors (Scene.Lags past L N) (Act.lift e) := mirrors_lift fun _ => he.mirrors fun e => .note e

theorem mirrors_modifyFocus {f : σ → σ} (hf : ∀ k x x', L k x x' → L k (f x) (f x')) :
    Mirrors (Scene.Lags past L N) (Act.modifyFocus f) := by
  refine .modify ?_
  rintro s s' ⟨n, k, hN, hw, hL⟩
  exact ⟨n, k, hN, hw, hf k _ _ hL⟩

/-- The part may have more replies left than the part of it that is operated on. -/
theorem mirrors_zoom {view : σ → τ} {update : τ → σ → σ} {act : Act τ α} {L' : Nat → τ → τ → Prop}
    (h : ∀ N, Mirrors (Scene.Lags past L' N) act)
    (hL : ∀ k x x', L k x x' → ∃ i j, i + j = k ∧ L' i (view x) (view x') ∧
      ∀ i t t', L' i t t' → L (i + j) (update t x) (update t' x')) :
    Mirrors (Scene.Lags past L N) (Act.zoom view update act) := by
  rintro s s' ⟨n, k, hN, hw, hk⟩
  obtain ⟨i, j, hij, hview, hupdate⟩ := hL k _ _ hk
  have hback (t t' : Scene τ) (ht : Scene.Lags past L' (n + i) t t') : Scene.Lags past L N
      ⟨update t.focus s.focus, t.world⟩ ⟨update t'.focus s'.focus, t'.world⟩ := by
    obtain ⟨m, l, hm, hw, hl⟩ := ht
    exact ⟨m, l + j, by omega, hw, hupdate l _ _ hl⟩
  exact Act.agree_zoom ((h (n + i) _ _ ⟨n, i, rfl, hw, hview⟩).mono hback hback)

end Scene

/-! ## Conversations -/

namespace Conversation

theorem plain_field (d : Datum) (name : String) : (field d name).Plain := by
  unfold field
  cases d with
  | record fields =>
    dsimp only
    cases fields.lookup name with
    | some v => exact .pure v
    | none => exact Effect.plain_fail _
  | _ => exact Effect.plain_fail _

theorem plain_isEmptyContent (d : Datum) : (isEmptyContent d).Plain := by
  cases d with
  | list items => exact .pure _
  | record fields => exact .pure _
  | text s => exact .pure _
  | _ => exact Effect.plain_fail _

theorem plain_textOfPart (d : Datum) : (textOfPart d).Plain := by
  unfold textOfPart
  cases d with
  | record fields =>
    dsimp only
    cases fields.lookup "text" with
    | none => exact .pure _
    | some v =>
      cases v with
      | text s => exact .pure s
      | _ => exact Effect.plain_fail _
  | text s => exact .ite (fun _ => Effect.plain_fail _) fun _ => .pure _
  | list items => exact .ite (fun _ => Effect.plain_fail _) fun _ => .pure _
  | _ => exact Effect.plain_fail _

theorem plain_textOfParts (items : List Datum) : (textOfParts items).Plain := by
  induction items with
  | nil => exact .pure _
  | cons d items ih => exact (plain_textOfPart d).bind fun _ => ih.bind fun _ => .pure _

theorem plain_textOfContent (d : Datum) : (textOfContent d).Plain := by
  cases d with
  | list items => exact plain_textOfParts items
  | record fields => exact Effect.plain_fail _
  | _ => exact .pure _

theorem plain_waitAfter (cause : String) : (waitAfter cause).Plain :=
  (Effect.plain_remark _).bind fun _ => Effect.plain_record (.wait _) fun _ => rfl

theorem plain_closeAndExit {α : Type} : (closeAndExit : Effect α).Plain :=
  (Effect.plain_record .close fun _ => rfl).bind fun _ => Effect.plain_exit _

/-- A change of the conversation that does not look at the replies that are left. -/
def KeepsScript (f : Conversation → Conversation) : Prop :=
  ∀ c script, f { c with script := script } = { f c with script := script }

theorem KeepsScript.script {f : Conversation → Conversation} (h : KeepsScript f)
    (c : Conversation) : (f c).script = c.script := by
  have hscript := congrArg Conversation.script (h c c.script)
  exact hscript

theorem keepsScript_dropBeforeMark : KeepsScript dropBeforeMark := by
  intro c script
  show (if c.isMarked then _ else _) = _
  unfold dropBeforeMark
  cases c.isMarked with
  | true => rfl
  | false => rfl

theorem keepsScript_dropFromMark : KeepsScript dropFromMark := by
  intro c script
  show (if c.isMarked then _ else _) = _
  unfold dropFromMark
  cases c.isMarked with
  | true => rfl
  | false => rfl

theorem keepsScript_keepMarkedOnly : KeepsScript keepMarkedOnly := by
  intro c script
  have hdrop := keepsScript_dropBeforeMark c script
  show (if c.isMarked then _ else _) = _
  unfold keepMarkedOnly
  cases c.isMarked with
  | true =>
    dsimp only
    rw [if_pos rfl, if_pos rfl, hdrop]
  | false => rfl

theorem withoutMarked_script (c : Conversation) (script : Script) :
    ({ c with script := script } : Conversation).withoutMarked =
      c.withoutMarked.map fun d => { d with script := script } := by
  show (if c.isMarked then _ else _) = _
  unfold withoutMarked
  cases c.isMarked with
  | true =>
    rw [if_pos rfl, if_pos rfl]
    cases place c.messages.length c.mark with
    | ok k => rfl
    | error f => rfl
  | false => rfl

theorem script_withoutMarked {c d : Conversation} (h : c.withoutMarked = .ok d) :
    d.script = c.script := by
  have hc := withoutMarked_script c c.script
  rw [show ({ c with script := c.script } : Conversation) = c from rfl, h] at hc
  have hscript := congrArg Conversation.script (Except.ok.inj hc)
  exact hscript

/-- Conversations that differ at most in the replies that are left, which the relation follows. -/
structure Like (L : Nat → Conversation → Conversation → Prop) : Prop where
  same : ∀ {k c c'}, L k c c' → ∃ script, c' = { c with script := script }
  change : ∀ {k c c' f}, KeepsScript f → L k c c' → L k (f c) (f c')

/-- The second conversation is the first with `k` more replies left. -/
def Lags (k : Nat) (c c' : Conversation) : Prop :=
  ∃ script, c' = { c with script := script } ∧ Delayed k c.script script

/-- The first conversation has the replies `rest` left and the second one `rest'`. -/
def Held (k₀ : Nat) (rest rest' : Script) (k : Nat) (c c' : Conversation) : Prop :=
  k = k₀ ∧ c.script = rest ∧ c' = { c with script := rest' }

theorem like_lags : Like Lags where
  same := fun ⟨script, hc, _⟩ => ⟨script, hc⟩
  change := by
    rintro k c _ f hf ⟨script, rfl, hd⟩
    exact ⟨script, hf c script, by rwa [hf.script]⟩

theorem like_held (k₀ : Nat) (rest rest' : Script) : Like (Held k₀ rest rest') where
  same := fun ⟨_, _, hc⟩ => ⟨rest', hc⟩
  change := by
    rintro k c _ f hf ⟨rfl, hs, rfl⟩
    exact ⟨rfl, (hf.script c).trans hs, hf c rest'⟩

section Act

variable {α : Type} {past : List Event} {L : Nat → Conversation → Conversation → Prop} {N : Nat}

theorem mirrors_dropMarked : Mirrors (Scene.Lags past Lags N) dropMarked := by
  rintro ⟨c, w⟩ ⟨_, w'⟩ ⟨n, k, hN, hw, script, rfl, hd⟩
  cases hc : c.withoutMarked with
  | ok d =>
    have hc' : ({ c with script := script } : Conversation).withoutMarked =
        .ok { d with script := script } := by
      rw [withoutMarked_script c script, hc]
      rfl
    rw [dropMarked_of_ok hc, dropMarked_of_ok hc']
    exact ⟨rfl, n, k, hN, hw, script, rfl, by rwa [script_withoutMarked hc]⟩
  | error f =>
    have hc' : ({ c with script := script } : Conversation).withoutMarked = .error f := by
      rw [withoutMarked_script c script, hc]
      rfl
    rw [dropMarked_of_error hc, dropMarked_of_error hc']
    exact ⟨rfl, n, k, hN, hw, script, rfl, hd⟩

theorem mirrors_line (t : String) : Mirrors (Scene.Lags past L N) (Act.lift (Effect.say t)) :=
  mirrors_effect (Effect.plain_say t)

variable (hL : Like L)

include hL

theorem mirrors_change {f : Conversation → Conversation} (hf : KeepsScript f) :
    Mirrors (Scene.Lags past L N) (Act.modifyFocus f) :=
  mirrors_modifyFocus fun _ _ _ => hL.change hf

theorem mirrors_focus_bind {f : Conversation → Act Conversation α}
    (hf : ∀ c, Mirrors (Scene.Lags past L N) (f c))
    (hsame : ∀ c script, f { c with script := script } = f c) :
    Mirrors (Scene.Lags past L N) (Act.focus >>= f) := by
  refine Act.alike_focus_bind ?_
  rintro s s' ⟨n, k, -, -, hc⟩
  obtain ⟨script, hs⟩ := hL.same hc
  rw [hs, hsame s.focus script]
  exact hf s.focus

theorem mirrors_tellBoth (text file : String) :
    Mirrors (Scene.Lags past L N) (tellBoth text file) := by
  have hadd (parts : List Part) : Mirrors (Scene.Lags past L N) (add parts) :=
    mirrors_change hL fun _ _ => rfl
  have hfile : Mirrors (Scene.Lags past L N) (do
      if file != "" then
        let prompt ← Effect.readText ((← Act.focus).promptDir ++ file)
        add [.text prompt] : Act Conversation Unit) := by
    refine .ite (fun _ => mirrors_focus_bind hL (fun c => ?_) fun _ _ => rfl)
      fun _ => .pure fun _ _ => id
    exact (mirrors_effect (Effect.plain_readText _)).bind fun prompt => hadd _
  exact .ite (fun _ => (hadd _).bind fun _ => hfile) fun _ => hfile

theorem mirrors_setSystem (text file : String) :
    Mirrors (Scene.Lags past L N) (setSystem text file) := by
  refine .ite (fun _ => mirrors_change hL fun _ _ => rfl) fun _ =>
    .ite (fun _ => mirrors_focus_bind hL (fun c => ?_) fun _ _ => rfl) fun _ => .pure fun _ _ => id
  exact (mirrors_effect (Effect.plain_readText _)).bind fun prompt =>
    mirrors_change hL fun _ _ => rfl

theorem mirrors_attachWith (text path : String) :
    Mirrors (Scene.Lags past L N) (attachWith text path) := by
  have hdocument : (documentOf path).Plain :=
    ((Effect.plain_openFile path).bind fun _ => .pure _).bind fun _ => .pure _
  exact (mirrors_effect hdocument).bind fun document => mirrors_change hL fun _ _ => rfl

theorem mirrors_receive (body : Datum) : Mirrors (Scene.Lags past L N) (receive body) := by
  refine (mirrors_effect (plain_field _ _)).bind fun output =>
    (mirrors_effect (plain_field _ _)).bind fun message =>
    (mirrors_effect (plain_field _ _)).bind fun content =>
    (mirrors_effect (plain_isEmptyContent _)).bind fun empty =>
    .ite (fun _ => .pure fun _ _ => id) fun _ => ?_
  exact (mirrors_change hL fun _ _ => rfl).bind fun _ => mirrors_effect (plain_textOfContent _)

theorem mirrors_rejected (message : Option String) (shortened : Bool) :
    Mirrors (Scene.Lags past L N) (rejected message shortened) := by
  cases message with
  | none => exact mirrors_effect (Effect.plain_fail _)
  | some message =>
    refine .ite (fun _ => (mirrors_line _).bind fun _ => mirrors_effect plain_closeAndExit) fun _ =>
      .ite (fun _ => (mirrors_line _).bind fun _ => (mirrors_line _).bind fun _ =>
        mirrors_effect (Effect.plain_exit _)) fun _ =>
      .ite (fun _ => ?_) fun _ => .ite (fun _ => ?_) fun _ => ?_
    · exact (mirrors_change hL keepsScript_dropFromMark).bind fun _ =>
        mirrors_effect (Effect.plain_fail _)
    · exact (mirrors_change hL keepsScript_keepMarkedOnly).bind fun _ => .pure fun _ _ => id
    · exact (mirrors_effect (Effect.plain_remark _)).bind fun _ =>
        (mirrors_change hL keepsScript_dropBeforeMark).bind fun _ => .pure fun _ _ => id

theorem mirrors_refused (code : String) (message : Option String) (shortened : Bool) :
    Mirrors (Scene.Lags past L N) (refused code message shortened) := by
  have hclose : Mirrors (Scene.Lags past L N) (Act.lift (closeAndExit : Effect Verdict)) :=
    mirrors_effect plain_closeAndExit
  refine .ite (fun _ => mirrors_focus_bind hL (fun c => ?_) fun _ _ => rfl) fun _ =>
    .ite (fun _ => (mirrors_effect (plain_waitAfter code)).bind fun _ => .pure fun _ _ => id)
      fun _ => .ite (fun _ => ?_) fun _ => .ite (fun _ => ?_) fun _ =>
    .ite (fun _ => mirrors_rejected hL message shortened) fun _ =>
    mirrors_effect (Effect.plain_fail _)
  · exact (mirrors_line _).bind fun _ => (mirrors_line _).bind fun _ =>
      (mirrors_line _).bind fun _ => hclose
  · exact (mirrors_line _).bind fun _ => (mirrors_line _).bind fun _ => hclose
  · exact (mirrors_line _).bind fun _ => (mirrors_line _).bind fun _ => hclose

end Act

end Conversation

/-! ## Repeated requests -/

/-- The second events end with `m` attempts at the request `e`. -/
def Pending (past : List Event) (n m : Nat) (e : Event) (es es' : List Event) : Prop :=
  ∃ front, Repeats past n es front ∧ es' = front ++ attempts e m

/-- The world after an attempt at the request and the pause after it. -/
def World.waiting (w : World) (e : Event) (cause : String) : World :=
  { w with
    trace := { w.trace with
      out := if w.settings.verbose then w.trace.out ++ notice cause ++ "\n" else w.trace.out
      events := w.trace.events ++ [e] ++ [.wait 240] } }

namespace Conversation

section

variable {past : List Event} {n m k : Nat} {c : Conversation} {w w' : World}

theorem asking_of_nil (h : c.messages = []) (next : Act Conversation String) (w : World) :
    asking next ⟨c, w⟩ = (do
      Effect.remark (Text.Colour.yellow.paint "No messages to send")
      return "" : Act Conversation String) ⟨c, w⟩ := by
  show (if c.messages.isEmpty then _ else _ : Act Conversation String) ⟨c, w⟩ = _
  rw [h]
  rfl

theorem asking_of_ne (h : c.messages ≠ []) (next : Act Conversation String) (w : World) :
    asking next ⟨c, w⟩ = next ⟨c, w.noting c.request⟩ := by
  show (if c.messages.isEmpty then _ else _ : Act Conversation String) ⟨c, w⟩ = _
  rw [if_neg fun hnil => h (List.isEmpty_iff.1 hnil)]
  rfl

theorem exists_asking (script : Script) (shortened : Bool) :
    ∃ next, exchange script shortened = asking next := by
  cases script with
  | nil => exact ⟨_, rfl⟩
  | cons r rest => exact ⟨_, rfl⟩

theorem printed?_of_plain {s : String} (h : '\x1b' ∉ s.toList) (w : World) :
    Effect.printed? w s = some s := by
  rw [Effect.printed?, Text.plain?_eq_self h, Option.map_some, String.ofList_toList, ite_self]

/-- The notices have nothing in them that an output other than a terminal would not show. -/
theorem printed?_notice {cause : String}
    (h : cause ∈ ["TimeoutError", "ThrottlingException", "ServiceUnavailableException",
      "ReadTimeoutError"]) (w : World) :
    Effect.printed? w (notice cause) = some (notice cause) := by
  have hplain : ∀ cause ∈ ["TimeoutError", "ThrottlingException", "ServiceUnavailableException",
      "ReadTimeoutError"], '\x1b' ∉ (notice cause).toList := by
    decide +kernel
  exact printed?_of_plain (hplain cause h) w

theorem print_apply {t : String} {w : World} (h : Effect.printed? w t = some t) :
    Effect.print t w = .ok () { w with trace := { w.trace with out := w.trace.out ++ t } } := by
  unfold Effect.print
  rw [Effect.get_bind_apply, h]
  rfl

theorem waitAfter_apply {cause : String}
    (h : cause ∈ ["TimeoutError", "ThrottlingException", "ServiceUnavailableException",
      "ReadTimeoutError"]) (w : World) (e : Event) :
    waitAfter cause (w.noting e) = .ok () (w.waiting e cause) := by
  show EStateM.bind (Effect.remark (notice cause)) _ _ = _
  have hremark : Effect.remark (notice cause) (w.noting e) = .ok () { w.noting e with
      trace := { (w.noting e).trace with out := (w.waiting e cause).trace.out } } := by
    show (if w.settings.verbose then Effect.say (notice cause) else pure () : Effect Unit) _ = _
    unfold World.waiting
    cases w.settings.verbose with
    | false => rfl
    | true =>
      rw [if_pos rfl]
      show EStateM.bind (Effect.print (notice cause)) _ _ = _
      rw [EStateM.bind, print_apply (printed?_notice h _)]
      exact print_apply (printed?_of_plain (by decide) _)
  rw [EStateM.bind, hremark]
  rfl

theorem refused_transient {code : String}
    (h : code ∈ ["ThrottlingException", "ServiceUnavailableException", "ReadTimeoutError"])
    (message : Option String) (shortened : Bool) :
    refused code message shortened = (do
      waitAfter code
      return .retry shortened) := by
  have hother : (code == "AccessDeniedException") = false := by
    simp only [List.mem_cons, List.not_mem_nil, or_false] at h
    rcases h with rfl | rfl | rfl
    all_goals decide
  have htransient : transientCodes.elem code = true := List.elem_iff.2 h
  unfold refused
  rw [hother, if_neg Bool.false_ne_true, if_pos htransient]

/-- A reply that passes is used up by one attempt and one pause. -/
theorem exchange_transient {r : Reply} (hr : r.isTransient = true) (hne : c.messages ≠ [])
    (rest : Script) (shortened : Bool) (w : World) :
    ∃ cause, exchange (r :: rest) shortened ⟨c, w⟩ =
      exchange rest shortened ⟨{ c with script := rest }, w.waiting c.request cause⟩ := by
  cases r with
  | timeout =>
    refine ⟨"TimeoutError", (asking_of_ne hne _ w).trans ?_⟩
    show EStateM.bind (Act.lift (waitAfter "TimeoutError")) _ _ = _
    rw [EStateM.bind, Act.lift, waitAfter_apply (by decide)]
  | refusal code message =>
    have hcode : code ∈ ["ThrottlingException", "ServiceUnavailableException",
        "ReadTimeoutError"] := List.elem_iff.1 hr
    have hrefused : refused code message shortened ⟨{ c with script := rest }, w.noting c.request⟩ =
        .ok (.retry shortened) ⟨{ c with script := rest }, w.waiting c.request code⟩ := by
      rw [refused_transient hcode]
      show EStateM.bind (Act.lift (waitAfter code)) _ _ = _
      rw [EStateM.bind, Act.lift, waitAfter_apply (List.mem_cons_of_mem _ hcode)]
      rfl
    refine ⟨code, (asking_of_ne hne _ w).trans ?_⟩
    show EStateM.bind (refused code message shortened) _ _ = _
    rw [EStateM.bind, hrefused]
  | _ => cases hr

theorem lags_pending {e : Event} (hw : w.Lags (fun _ _ => True) (Repeats past n) n w') :
    w.Lags (fun _ _ => True) (Pending past n 0 e) (n + 0) w' := by
  obtain ⟨scripts, out, events, rfl, -, hes, hout⟩ := hw
  exact ⟨scripts, out, events, rfl, trivial, ⟨events, hes, by simp [attempts]⟩, hout⟩

/-- After the attempts the request is made. -/
theorem lags_noting (hw : w.Lags (fun _ _ => True) (Pending past n m c.request) (n + m) w') :
    (w.noting c.request).Lags (fun _ _ => True) (Repeats past (n + m)) (n + m)
      (w'.noting c.request) := by
  obtain ⟨scripts, out, _, rfl, -, ⟨front, hfront, rfl⟩, hout⟩ := hw
  refine ⟨scripts, out, _, rfl, trivial, ?_, hout⟩
  rw [List.append_assoc]
  exact .request m _ _ _ _ hfront

/-- One more attempt. -/
theorem lags_waiting (hw : w.Lags (fun _ _ => True) (Pending past n m c.request) (n + m) w')
    (cause : String) :
    w.Lags (fun _ _ => True) (Pending past n (m + 1) c.request) (n + (m + 1))
      (w'.waiting c.request cause) := by
  obtain ⟨scripts, out, _, rfl, -, ⟨front, hfront, rfl⟩, hout⟩ := hw
  refine ⟨scripts, _, _, rfl, trivial, ⟨front, hfront, ?_⟩, ?_⟩
  · simp [attempts]
  · show Noticed _ _ (if w.settings.verbose then out ++ notice cause ++ "\n" else out)
    cases hv : w.settings.verbose with
    | true =>
      rw [hv] at hout
      exact hout.notice cause
    | false =>
      rw [hv] at hout
      exact hout

/-- Two conversations ask, the second one after `m` attempts. -/
theorem agree_asking {script : Script} {next next' : Act Conversation String}
    (hm : 0 < m → c.messages ≠ []) (hd : Delayed k c.script script)
    (hw : w.Lags (fun _ _ => True) (Pending past n m c.request) (n + m) w')
    (hnext : c.messages ≠ [] → (w.noting c.request).Lags (fun _ _ => True) (Repeats past (n + m))
      (n + m) (w'.noting c.request) → Agree (Scene.Lags past Lags (n + m + k))
        (Scene.Lags past Lags (n + m + k)) (next ⟨c, w.noting c.request⟩)
        (next' ⟨{ c with script := script }, w'.noting c.request⟩)) :
    Agree (Scene.Lags past Lags (n + m + k)) (Scene.Lags past Lags (n + m + k))
      (asking next ⟨c, w⟩) (asking next' ⟨{ c with script := script }, w'⟩) := by
  by_cases hnil : c.messages = []
  · obtain rfl : m = 0 := Nat.eq_zero_of_not_pos fun h => hm h hnil
    have hnil' : ({ c with script := script } : Conversation).messages = [] := hnil
    obtain ⟨scripts, out, _, rfl, -, ⟨front, hfront, rfl⟩, hout⟩ := hw
    rw [asking_of_nil hnil, asking_of_nil hnil']
    refine (mirrors_effect (Effect.plain_remark _)).bind (fun _ => .pure fun _ _ => id) _ _ ?_
    refine ⟨n, k, rfl, ⟨scripts, out, _, rfl, trivial, ?_, hout⟩, script, rfl, hd⟩
    simpa [attempts] using hfront
  · have hne : ({ c with script := script } : Conversation).messages ≠ [] := hnil
    rw [asking_of_ne hnil, asking_of_ne hne]
    exact hnext hnil (lags_noting hw)

/-- The replies that pass make no difference to an exchange. The induction is on where they are; `m`
of them have been used up since the last event of the first run. -/
theorem agree_exchange {script script' : Script} (h : Delayed k script script') (shortened : Bool)
    (hm : 0 < m → c.messages ≠ []) (hs : c.script = script)
    (hw : w.Lags (fun _ _ => True) (Pending past n m c.request) (n + m) w') :
    Agree (Scene.Lags past Lags (n + m + k)) (Scene.Lags past Lags (n + m + k))
      (exchange script shortened ⟨c, w⟩)
      (exchange script' shortened ⟨{ c with script := script' }, w'⟩) := by
  induction h generalizing shortened n m c w w' with
  | nil =>
    refine agree_asking hm (by rw [hs]; exact .nil) hw fun _ hnoted => ?_
    exact ⟨rfl, n + m, 0, rfl, hnoted, [], rfl, by rw [hs]; exact .nil⟩
  | @keep k rest rest' r hd ih =>
    have hdelayed : Delayed k c.script (r :: rest') := by
      rw [hs]
      exact .keep r hd
    refine agree_asking hm hdelayed hw fun _ hnoted => ?_
    have hheld : Scene.Lags past (Held k rest rest') (n + m + k)
        ⟨{ c with script := rest }, w.noting c.request⟩
        ⟨{ c with script := rest' }, w'.noting c.request⟩ :=
      ⟨n + m, k, rfl, hnoted, rfl, rfl, rfl⟩
    have hback (s s' : Scene Conversation)
        (hs : Scene.Lags past (Held k rest rest') (n + m + k) s s') :
        Scene.Lags past Lags (n + m + k) s s' := by
      obtain ⟨n₁, k₁, hN, hw, rfl, hrest, hc⟩ := hs
      exact ⟨n₁, k₁, hN, hw, rest', hc, by rwa [hrest]⟩
    have hagain (shortened : Bool) : Alike (Scene.Lags past (Held k rest rest') (n + m + k))
        (Scene.Lags past Lags (n + m + k)) (Scene.Lags past Lags (n + m + k))
        (exchange rest shortened) (exchange rest' shortened) := by
      rintro ⟨c₁, w₁⟩ ⟨_, w₁'⟩ ⟨n₁, k₁, hN, hw₁, rfl, hs₁, rfl⟩
      rw [← hN]
      exact ih shortened (m := 0) (fun hlt => absurd hlt (Nat.lt_irrefl 0)) hs₁ (lags_pending hw₁)
    cases r with
    | always body =>
      exact mirrors_receive like_lags body _ _ ⟨n + m, k, rfl, hnoted, _, rfl, hdelayed⟩
    | response body =>
      exact (mirrors_receive (like_held k rest rest') body _ _ hheld).mono hback hback
    | timeout =>
      exact ((mirrors_effect (plain_waitAfter _) _ _ hheld).mono (fun _ _ => id) hback).bind
        fun _ => hagain shortened
    | interrupt => exact ⟨rfl, hback _ _ hheld⟩
    | refusal code message =>
      refine ((mirrors_refused (like_held k rest rest') code message shortened _ _ hheld).mono
        (fun _ _ => id) hback).bind fun verdict t t' ht => ?_
      cases verdict with
      | retry shortened => exact hagain shortened t t' ht
      | giveUp => exact ⟨rfl, hback t t' ht⟩
  | @insert k script rest' r hr hd ih =>
    by_cases hnil : c.messages = []
    · obtain ⟨next, hnext⟩ := exists_asking script shortened
      obtain ⟨next', hnext'⟩ := exists_asking (r :: rest') shortened
      rw [hnext, hnext']
      refine agree_asking hm ?_ hw fun hne => absurd hnil hne
      rw [hs]
      exact .insert hr hd
    · have hne : ({ c with script := r :: rest' } : Conversation).messages ≠ [] := hnil
      obtain ⟨cause, hcause⟩ := exchange_transient hr hne rest' shortened w'
      rw [hcause, show n + m + (k + 1) = n + (m + 1) + k by omega]
      exact ih shortened (fun _ => hnil) hs (lags_waiting hw cause)

theorem mirrors_ask (N : Nat) : Mirrors (Scene.Lags past Lags N) ask := by
  rintro ⟨c, w⟩ ⟨_, w'⟩ ⟨n, k, rfl, hw, script, rfl, hd⟩
  exact agree_exchange (m := 0) hd false (fun hlt => absurd hlt (Nat.lt_irrefl 0)) rfl
    (lags_pending hw)

end

end Conversation

end Covenant
