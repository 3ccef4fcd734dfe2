import Covenant.Proofs.World.Built

/-!
# Two runs side by side

`Alike K Q E x x'` says of every two runs, of `x` and of `x'`, that start from states in `K`: both
return the same value, in states in `Q`, or both are stopped for the same reason, in states in `E`.
As for one run, it is put together along the operations. What is put together from operations that
mirror each other does so too (`Built.mirrors`).
-/

namespace Covenant

section State

variable {σ α β : Type}

/-- Two runs ended in the same way, in states in `Q` when they returned and in `E` when they were
stopped. -/
def Agree (Q E : σ → σ → Prop) : EStateM.Result Stop σ α → EStateM.Result Stop σ α → Prop
  | .ok a s, .ok a' s' => a' = a ∧ Q s s'
  | .error e s, .error e' s' => e' = e ∧ E s s'
  | _, _ => False

/-- Two runs from states in `K` end in the same way. -/
def Alike (K Q E : σ → σ → Prop) (x x' : EStateM Stop σ α) : Prop :=
  ∀ s s', K s s' → Agree Q E (x s) (x' s')

/-- Two runs of the operation from states in `K` end in the same way. -/
abbrev Parallel (K Q E : σ → σ → Prop) (x : EStateM Stop σ α) : Prop := Alike K Q E x x

/-- Two runs of the operation from states in `R` end in the same way, in states in `R`. -/
abbrev Mirrors (R : σ → σ → Prop) (x : EStateM Stop σ α) : Prop := Parallel R R R x

variable {K K' Q Q' E E' P R : σ → σ → Prop} {x x' : EStateM Stop σ α} {s s' : σ}
  {f f' : α → EStateM Stop σ β}

theorem agree_iff {r r' : EStateM.Result Stop σ α} :
    Agree Q E r r' ↔ (∃ a s s', r = .ok a s ∧ r' = .ok a s' ∧ Q s s') ∨
      ∃ e s s', r = .error e s ∧ r' = .error e s' ∧ E s s' := by
  constructor
  · intro h
    cases r with
    | ok a s =>
      cases r' with
      | ok a' s' =>
        obtain ⟨rfl, hs⟩ := h
        exact .inl ⟨a', s, s', rfl, rfl, hs⟩
      | error e' s' => exact h.elim
    | error e s =>
      cases r' with
      | ok a' s' => exact h.elim
      | error e' s' =>
        obtain ⟨rfl, hs⟩ := h
        exact .inr ⟨e', s, s', rfl, rfl, hs⟩
  · rintro (⟨a, s, s', rfl, rfl, hs⟩ | ⟨e, s, s', rfl, rfl, hs⟩)
    · exact ⟨rfl, hs⟩
    · exact ⟨rfl, hs⟩

theorem Agree.mono {r r' : EStateM.Result Stop σ α} (h : Agree Q E r r')
    (hQ : ∀ s s', Q s s' → Q' s s') (hE : ∀ s s', E s s' → E' s s') : Agree Q' E' r r' := by
  rcases agree_iff.1 h with ⟨a, t, t', rfl, rfl, ht⟩ | ⟨e, t, t', rfl, rfl, ht⟩
  · exact ⟨rfl, hQ t t' ht⟩
  · exact ⟨rfl, hE t t' ht⟩

theorem Agree.bind (h : Agree Q E (x s) (x' s'))
    (hf : ∀ a t t', Q t t' → Agree P E (f a t) (f' a t')) :
    Agree P E ((x >>= f) s) ((x' >>= f') s') := by
  show Agree P E (EStateM.bind x f s) (EStateM.bind x' f' s')
  unfold EStateM.bind
  rcases agree_iff.1 h with ⟨a, t, t', hx, hx', ht⟩ | ⟨e, t, t', hx, hx', ht⟩
  · rw [hx, hx']
    exact hf a t t' ht
  · rw [hx, hx']
    exact ⟨rfl, ht⟩

theorem Alike.mono (h : Alike K Q E x x') (hK : ∀ s s', K' s s' → K s s')
    (hQ : ∀ s s', Q s s' → Q' s s') (hE : ∀ s s', E s s' → E' s s') : Alike K' Q' E' x x' :=
  fun s s' hs => (h s s' (hK s s' hs)).mono hQ hE

theorem Alike.pure {a : α} (h : ∀ s s', K s s' → Q s s') : Alike K Q E (pure a) (pure a) :=
  fun s s' hs => ⟨rfl, h s s' hs⟩

theorem Alike.throw {e : Stop} (h : ∀ s s', K s s' → E s s') :
    Alike K Q E (throw e : EStateM Stop σ α) (throw e) := fun s s' hs => ⟨rfl, h s s' hs⟩

theorem Alike.bind (hx : Alike K Q E x x') (hf : ∀ a, Alike Q P E (f a) (f' a)) :
    Alike K P E (x >>= f) (x' >>= f') :=
  fun s s' hs => (hx s s' hs).bind fun a t t' ht => hf a t t' ht

theorem Alike.get_bind {g g' : σ → EStateM Stop σ α}
    (hg : ∀ s s', K s s' → Alike K Q E (g s) (g' s')) : Alike K Q E (get >>= g) (get >>= g') :=
  fun s s' hs => hg s s' hs s s' hs

theorem Alike.ite {p : Prop} [Decidable p] {y y' : EStateM Stop σ α} (hx : p → Alike K Q E x x')
    (hy : ¬ p → Alike K Q E y y') : Alike K Q E (if p then x else y) (if p then x' else y') := by
  by_cases h : p
  · rw [if_pos h, if_pos h]
    exact hx h
  · rw [if_neg h, if_neg h]
    exact hy h

theorem Alike.modify {f f' : σ → σ} (h : ∀ s s', K s s' → Q (f s) (f' s')) :
    Alike K Q E (modify f) (modify f') := fun s s' hs => ⟨rfl, h s s' hs⟩

theorem Alike.tryCatch {handle handle' : Stop → EStateM Stop σ α} (hx : Alike K Q E' x x')
    (hh : ∀ e, Alike E' Q E (handle e) (handle' e)) :
    Alike K Q E (tryCatch x handle) (tryCatch x' handle') := by
  intro s s' hs
  have hcatch (y : EStateM Stop σ α) (g : Stop → EStateM Stop σ α) (t : σ) :
      MonadExcept.tryCatch y g t = EStateM.tryCatch (δ := PUnit) y g t := rfl
  rw [hcatch, hcatch]
  unfold EStateM.tryCatch
  rcases agree_iff.1 (hx s s' hs) with ⟨a, t, t', hr, hr', ht⟩ | ⟨e, t, t', hr, hr', ht⟩
  · rw [hr, hr']
    exact ⟨rfl, ht⟩
  · rw [hr, hr']
    exact hh e t t' ht

/-- What the basic operations do in the same way is done in the same way. -/
theorem Built.mirrors {Sim : σ → σ → Prop} {B : (α : Type) → EStateM Stop σ α → Prop}
    (h : Built Sim B α x) (hR : ∀ s s', R s s' → Sim s s') (hB : ∀ α x, B α x → Mirrors R x) :
    Mirrors R x := by
  induction h with
  | base h => exact hB _ _ h
  | pure a => exact .pure fun _ _ => id
  | throw e => exact .throw fun _ _ => id
  | bind _ _ hx hf => exact hx.bind hf
  | look _ hsame hf =>
    refine .get_bind fun s s' hs => ?_
    rw [hsame s s' (hR s s' hs)]
    exact hf s
  | tryCatch _ _ hx hh => exact hx.tryCatch hh

end State

namespace Act

variable {σ τ α : Type} {K Q E : Scene σ → Scene σ → Prop} {s s' : Scene σ}

theorem agree_lift {e e' : Effect α}
    (h : Agree (fun w w' => Q { s with world := w } { s' with world := w' })
      (fun w w' => E { s with world := w } { s' with world := w' }) (e s.world) (e' s'.world)) :
    Agree Q E (lift e s) (lift e' s') := by
  unfold lift
  rcases agree_iff.1 h with ⟨a, w, w', he, he', hw⟩ | ⟨x, w, w', he, he', hw⟩
  · rw [he, he']
    exact ⟨rfl, hw⟩
  · rw [he, he']
    exact ⟨rfl, hw⟩

theorem agree_zoom {view view' : σ → τ} {update : τ → σ → σ} {act act' : Act τ α}
    (h : Agree
      (fun t t' => Q ⟨update t.focus s.focus, t.world⟩ ⟨update t'.focus s'.focus, t'.world⟩)
      (fun t t' => E ⟨update t.focus s.focus, t.world⟩ ⟨update t'.focus s'.focus, t'.world⟩)
      (act ⟨view s.focus, s.world⟩) (act' ⟨view' s'.focus, s'.world⟩)) :
    Agree Q E (zoom view update act s) (zoom view' update act' s') := by
  unfold zoom
  rcases agree_iff.1 h with ⟨a, t, t', ha, ha', ht⟩ | ⟨x, t, t', ha, ha', ht⟩
  · rw [ha, ha']
    exact ⟨rfl, ht⟩
  · rw [ha, ha']
    exact ⟨rfl, ht⟩

theorem alike_focus_bind {f f' : σ → Act σ α}
    (hf : ∀ s s', K s s' → Alike K Q E (f s.focus) (f' s'.focus)) :
    Alike K Q E (focus >>= f) (focus >>= f') := fun s s' hs => hf s s' hs s s' hs

/-- What holds however two runs end alike holds after them. -/
theorem of_agree {act act' : Act σ α} {f f' : σ} {w w' : World} {T : Scene σ → Scene σ → Prop}
    (h : Agree T T (act ⟨f, w⟩) (act' ⟨f', w'⟩)) :
    (act'.runOn f' w').1 = (act.runOn f w).1 ∧ T ⟨(act.runOn f w).2.1, (act.runOn f w).2.2⟩
      ⟨(act'.runOn f' w').2.1, (act'.runOn f' w').2.2⟩ := by
  unfold runOn
  rcases agree_iff.1 h with ⟨a, t, t', ha, ha', ht⟩ | ⟨e, t, t', ha, ha', ht⟩
  · rw [ha, ha']
    exact ⟨rfl, ht⟩
  · rw [ha, ha']
    exact ⟨rfl, ht⟩

end Act

end Covenant
