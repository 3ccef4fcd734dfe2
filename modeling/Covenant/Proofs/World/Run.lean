import Covenant.World.Basic

/-!
# How runs end

`Ends x s Q E` says how the run of an operation from `s` ends: with `Q` when it returns, with `E`
when it is stopped. `Brings K Q E x` says it of every run that starts in `K`. Both are put together
along the operation: one rule for each way to make an operation from others.
-/

namespace Covenant

section State

variable {σ α β : Type}

/-- The run from `s` ends with `Q` when it returns and with `E` when it is stopped. -/
def Ends (x : EStateM Stop σ α) (s : σ) (Q : α → σ → Prop) (E : Stop → σ → Prop) : Prop :=
  match x s with
  | .ok a t => Q a t
  | .error e t => E e t

variable {x : EStateM Stop σ α} {f : α → EStateM Stop σ β} {s t : σ} {Q Q' : α → σ → Prop}
  {R : β → σ → Prop} {E E' : Stop → σ → Prop}

theorem ends_iff :
    Ends x s Q E ↔ (∀ a t, x s = .ok a t → Q a t) ∧ ∀ e t, x s = .error e t → E e t := by
  unfold Ends
  cases x s with
  | ok a t => simp
  | error e t => simp

theorem Ends.of_ok {a : α} (h : Ends x s Q E) (hx : x s = .ok a t) : Q a t :=
  (ends_iff.1 h).1 a t hx

theorem Ends.of_error {e : Stop} (h : Ends x s Q E) (hx : x s = .error e t) : E e t :=
  (ends_iff.1 h).2 e t hx

theorem Ends.mono (h : Ends x s Q E) (hQ : ∀ a t, Q a t → Q' a t) (hE : ∀ e t, E e t → E' e t) :
    Ends x s Q' E' :=
  ends_iff.2 ⟨fun a t hx => hQ a t (h.of_ok hx), fun e t hx => hE e t (h.of_error hx)⟩

theorem Ends.and (h : Ends x s Q E) (h' : Ends x s Q' E') :
    Ends x s (fun a t => Q a t ∧ Q' a t) fun e t => E e t ∧ E' e t :=
  ends_iff.2 ⟨fun _ _ hx => ⟨h.of_ok hx, h'.of_ok hx⟩,
    fun _ _ hx => ⟨h.of_error hx, h'.of_error hx⟩⟩

theorem ends_bind : Ends (x >>= f) s R E ↔ Ends x s (fun a t => Ends (f a) t R E) E := by
  unfold Ends
  show (match EStateM.bind x f s with | .ok a t => R a t | .error e t => E e t) ↔ _
  unfold EStateM.bind
  cases x s with
  | ok a t => rfl
  | error e t => rfl

theorem Ends.bind (hx : Ends x s Q E) (hf : ∀ a t, Q a t → Ends (f a) t R E) :
    Ends (x >>= f) s R E :=
  ends_bind.2 (hx.mono hf fun _ _ he => he)

/-- A handler takes over when a run is stopped, with the changes made so far. -/
theorem ends_tryCatch {handle : Stop → EStateM Stop σ α} :
    Ends (tryCatch x handle) s Q E ↔ Ends x s Q fun e t => Ends (handle e) t Q E := by
  unfold Ends
  have h : tryCatch x handle s = EStateM.tryCatch (δ := PUnit) x handle s := rfl
  rw [h]
  unfold EStateM.tryCatch
  cases x s with
  | ok a t => rfl
  | error e t => rfl

/-- Every run from `K` ends with `Q` when it returns and with `E` when it is stopped. -/
def Brings (K : σ → Prop) (Q : α → σ → Prop) (E : Stop → σ → Prop) (x : EStateM Stop σ α) : Prop :=
  ∀ s, K s → Ends x s Q E

variable {K K' : σ → Prop}

theorem Brings.mono (h : Brings K Q E x) (hK : ∀ s, K' s → K s) (hQ : ∀ a t, Q a t → Q' a t)
    (hE : ∀ e t, E e t → E' e t) : Brings K' Q' E' x :=
  fun s hs => (h s (hK s hs)).mono hQ hE

theorem Brings.pure {a : α} (h : ∀ s, K s → Q a s) : Brings K Q E (pure a) := h

theorem Brings.bind (hx : Brings K Q E x) (hf : ∀ a, Brings (Q a) R E (f a)) :
    Brings K R E (x >>= f) := fun s hs => (hx s hs).bind fun a t ht => hf a t ht

theorem Brings.ite {p : Prop} [Decidable p] {y : EStateM Stop σ α} (hx : p → Brings K Q E x)
    (hy : ¬ p → Brings K Q E y) : Brings K Q E (if p then x else y) := by
  by_cases h : p
  · rw [if_pos h]
    exact hx h
  · rw [if_neg h]
    exact hy h

/-- A value that is known to be given, with no change. -/
theorem Brings.value_bind {v : α} (hx : ∀ s, K s → x s = .ok v s) (hf : Brings K R E (f v)) :
    Brings K R E (x >>= f) := by
  intro s hs
  rw [ends_bind, Ends, hx s hs]
  exact hf s hs

theorem Brings.get_bind {f : σ → EStateM Stop σ β} (hf : ∀ s, K s → Brings K R E (f s)) :
    Brings K R E (get >>= f) := fun s hs => hf s hs s hs

theorem brings_done (a : α) : Brings K (fun _ => K) E (Pure.pure a) := .pure fun _ => id

end State

namespace Act

/-- The operation keeps the invariant, stopped or not. -/
abbrev Keeps {σ α : Type} (p : Scene σ → Prop) (act : Act σ α) : Prop :=
  Brings p (fun _ => p) (fun _ => p) act

variable {σ τ α : Type} {s : Scene σ} {E : Stop → Scene σ → Prop}

theorem ends_lift {e : Effect α} {Q : α → Scene σ → Prop} :
    Ends (lift e) s Q E ↔ Ends e s.world (fun a w => Q a { s with world := w })
      fun x w => E x { s with world := w } := by
  unfold Ends lift
  cases e s.world with
  | ok a w => rfl
  | error x w => rfl

theorem ends_zoom {view : σ → τ} {update : τ → σ → σ} {act : Act τ α} {Q : α → Scene σ → Prop} :
    Ends (zoom view update act) s Q E ↔
      Ends act ⟨view s.focus, s.world⟩ (fun a t => Q a ⟨update t.focus s.focus, t.world⟩)
        fun x t => E x ⟨update t.focus s.focus, t.world⟩ := by
  unfold Ends zoom
  cases act ⟨view s.focus, s.world⟩ with
  | ok a t => rfl
  | error x t => rfl

/-- What is known of the end of an operation holds of the result of its run. -/
theorem of_runOn_result {act : Act σ α} {f f' : σ} {w w' : World} {r : Except Stop α}
    {T : Except Stop α → σ → World → Prop} (h : Ends act ⟨f, w⟩
      (fun a t => T (.ok a) t.focus t.world) fun e t => T (.error e) t.focus t.world)
    (hrun : act.runOn f w = (r, f', w')) : T r f' w' := by
  unfold runOn at hrun
  unfold Ends at h
  cases hact : act ⟨f, w⟩ with
  | ok a t =>
    rw [hact] at hrun h
    obtain ⟨rfl, rfl, rfl⟩ : .ok a = r ∧ t.focus = f' ∧ t.world = w' := by simpa using hrun
    exact h
  | error e t =>
    rw [hact] at hrun h
    obtain ⟨rfl, rfl, rfl⟩ : .error e = r ∧ t.focus = f' ∧ t.world = w' := by simpa using hrun
    exact h

/-- What holds however an operation ends holds after its run. -/
theorem of_runOn {act : Act σ α} {f f' : σ} {w w' : World} {r : Except Stop α}
    {T : σ → World → Prop} (h : Ends act ⟨f, w⟩ (fun _ t => T t.focus t.world)
      fun _ t => T t.focus t.world) (hrun : act.runOn f w = (r, f', w')) : T f' w' :=
  of_runOn_result (T := fun _ => T) h hrun

theorem brings_focus_bind {f : σ → Act σ α} {K : Scene σ → Prop} {Q : α → Scene σ → Prop}
    (hf : ∀ s, K s → Brings K Q E (f s.focus)) : Brings K Q E (focus >>= f) :=
  fun s hs => hf s hs s hs

theorem focus_bind_apply (f : σ → Act σ α) (s : Scene σ) : (focus >>= f) s = f s.focus s := rfl

theorem settings_apply {st : Settings} (h : s.world.settings = st) :
    lift Effect.settings s = .ok st s := by
  rw [← h]
  rfl

theorem brings_zoom {view : σ → τ} {update : τ → σ → σ} {act : Act τ α} {K : Scene τ → Prop}
    {K' : Scene σ → Prop} {Q : α → Scene τ → Prop} {Q' : α → Scene σ → Prop}
    {E : Stop → Scene τ → Prop} {E' : Stop → Scene σ → Prop} (h : Brings K Q E act)
    (hK : ∀ s, K' s → K ⟨view s.focus, s.world⟩)
    (hQ : ∀ s a t, K' s → Q a t → Q' a ⟨update t.focus s.focus, t.world⟩)
    (hE : ∀ s e t, K' s → E e t → E' e ⟨update t.focus s.focus, t.world⟩) :
    Brings K' Q' E' (zoom view update act) := fun s hs =>
  ends_zoom.2 ((h _ (hK s hs)).mono (fun a t => hQ s a t hs) fun e t => hE s e t hs)

end Act

end Covenant
