import Covenant.Text.Search

/-!
# Fields and occurrences

A text is cut at the first occurrence of a separator: `cut?` gives what stands before and after it
(`cutAt?_eq_some_iff`), and nothing when there is no occurrence (`cutAt?_eq_none_iff`). The first
field is the text up to that occurrence, or all of it (`firstField_eq_iff`).
-/

namespace Covenant.Text

/-! ## Occurrences -/

/-- The text is `before`, the first occurrence of `sep` in it, and `after`. -/
structure FirstAt (sep before after text : List Char) : Prop where
  eq : text = before ++ sep ++ after
  first : ∀ a b, text = a ++ sep ++ b → before.length ≤ a.length

theorem FirstAt.isInfix {sep before after text : List Char} (h : FirstAt sep before after text) :
    sep <:+: text := ⟨before, after, h.eq.symm⟩

theorem FirstAt.cons {sep before after text : List Char} {c : Char}
    (h : FirstAt sep before after text) (hc : ¬ sep <+: c :: text) :
    FirstAt sep (c :: before) after (c :: text) := by
  refine ⟨by rw [h.eq]; rfl, fun a b hab => ?_⟩
  cases a with
  | nil => exact absurd ⟨b, hab.symm⟩ hc
  | cons x a =>
    have htext : text = a ++ sep ++ b := (List.cons.inj hab).2
    exact Nat.succ_le_succ (h.first a b htext)

theorem FirstAt.of_cons {sep before after text : List Char} {c x : Char}
    (h : FirstAt sep (x :: before) after (c :: text)) :
    x = c ∧ FirstAt sep before after text := by
  obtain ⟨rfl, htext⟩ := List.cons.inj h.eq
  refine ⟨rfl, htext, fun a b hab => ?_⟩
  exact Nat.le_of_succ_le_succ (h.first (c :: a) b (by rw [hab]; rfl))

theorem cutAt?_eq_some_iff {sep s before after : List Char} :
    cutAt? sep s = some (before, after) ↔ FirstAt sep before after s := by
  induction s generalizing before with
  | nil =>
    rw [cutAt?]
    constructor
    · intro h
      have hs : ([] : List Char) = before ++ sep ++ after := cutAt?_eq_some (by rw [cutAt?, h])
      refine ⟨hs, fun a b hab => ?_⟩
      obtain ⟨rfl, -, -⟩ : before = [] ∧ sep = [] ∧ after = [] := by simpa using hs.symm
      exact Nat.zero_le _
    · intro h
      obtain ⟨rfl, rfl, rfl⟩ : before = [] ∧ sep = [] ∧ after = [] := by simpa using h.eq.symm
      rfl
  | cons c r ih =>
    rw [cutAt?]
    by_cases hp : sep <+: c :: r
    · rw [if_pos (List.isPrefixOf_iff_prefix.2 hp)]
      obtain ⟨t, ht⟩ := hp
      rw [← ht, List.drop_left]
      constructor
      · intro h
        obtain ⟨rfl, rfl⟩ : [] = before ∧ t = after := by simpa using h
        exact ⟨rfl, fun _ _ _ => Nat.zero_le _⟩
      · intro h
        obtain rfl : before = [] := List.length_eq_zero_iff.1 (Nat.le_zero.1 (h.first [] t rfl))
        obtain rfl : t = after := List.append_cancel_left h.eq
        rfl
    · rw [if_neg fun h => hp (List.isPrefixOf_iff_prefix.1 h)]
      constructor
      · intro h
        obtain ⟨⟨a, b⟩, hab, he⟩ := Option.map_eq_some_iff.1 h
        obtain ⟨rfl, rfl⟩ : c :: a = before ∧ b = after := by simpa using he
        exact (ih.1 hab).cons hp
      · intro h
        cases before with
        | nil => exact absurd ⟨after, h.eq.symm⟩ hp
        | cons x before =>
          obtain ⟨rfl, hr⟩ := h.of_cons
          rw [ih.2 hr]
          rfl

theorem cutAt?_eq_none_iff {sep s : List Char} : cutAt? sep s = none ↔ ¬ sep <:+: s := by
  induction s with
  | nil =>
    rw [cutAt?, List.infix_nil]
    cases sep <;> simp
  | cons c r ih =>
    rw [cutAt?, List.infix_cons_iff, not_or, ← ih]
    by_cases hp : sep <+: c :: r
    · simp [List.isPrefixOf_iff_prefix.2 hp, hp]
    · have hno : sep.isPrefixOf (c :: r) = false := by
        rw [Bool.eq_false_iff]
        exact fun h => hp (List.isPrefixOf_iff_prefix.1 h)
      simp [hno, hp]

theorem contains_iff {sep : String} {s : List Char} :
    contains sep s = true ↔ sep.toList <:+: s := by
  rw [contains, cut?, Option.isSome_iff_ne_none, Ne, cutAt?_eq_none_iff, Classical.not_not]

theorem contains_eq_false_iff {sep : String} {s : List Char} :
    contains sep s = false ↔ ¬ sep.toList <:+: s := by
  rw [← contains_iff, Bool.not_eq_true]

/-- There is a second field exactly when the separator occurs. -/
theorem isSome_secondField? {sep : String} {s : List Char} :
    (secondField? sep s).isSome = contains sep s := by
  rw [secondField?, Option.isSome_map, contains]

/-! ## First fields -/

/-- The field is the text up to the first `sep`, or all of it. -/
def IsFirstField (sep field text : List Char) : Prop :=
  (∃ after, FirstAt sep field after text) ∨ ¬ sep <:+: text ∧ field = text

theorem firstField_eq_iff {sep : String} {s field : List Char} :
    firstField sep s = field ↔ IsFirstField sep.toList field s := by
  unfold firstField IsFirstField cut?
  cases hcut : cutAt? sep.toList s with
  | none =>
    have hno := cutAt?_eq_none_iff.1 hcut
    constructor
    · intro h
      exact .inr ⟨hno, h.symm⟩
    · rintro (⟨after, h⟩ | ⟨-, h⟩)
      · exact absurd h.isInfix hno
      · exact h.symm
  | some p =>
    obtain ⟨before, after⟩ := p
    have hfirst := cutAt?_eq_some_iff.1 hcut
    constructor
    · rintro rfl
      exact .inl ⟨after, hfirst⟩
    · rintro (⟨after', h⟩ | ⟨hno, -⟩)
      · rw [cutAt?_eq_some_iff.2 h] at hcut
        exact (congrArg Prod.fst (Option.some.inj hcut)).symm
      · exact absurd hfirst.isInfix hno

theorem firstField_nil (sep : String) : firstField sep [] = [] := by
  unfold firstField cut?
  rw [cutAt?]
  cases sep.toList.isPrefixOf [] <;> rfl

theorem firstField_cons (sep : String) (c : Char) (r : List Char) :
    firstField sep (c :: r) =
      if sep.toList.isPrefixOf (c :: r) then [] else c :: firstField sep r := by
  unfold firstField cut?
  rw [cutAt?]
  cases sep.toList.isPrefixOf (c :: r) with
  | true => rfl
  | false => cases cutAt? sep.toList r <;> rfl

theorem isPrefix_firstField (sep : String) (s : List Char) : firstField sep s <+: s := by
  induction s with
  | nil => simp [firstField_nil]
  | cons c r ih =>
    rw [firstField_cons]
    cases sep.toList.isPrefixOf (c :: r) with
    | true => exact List.nil_prefix
    | false => exact (List.prefix_cons_inj c).2 ih

/-! ## Fences -/

/-- The next fence ends the code, also if it opens another block, unless there are more than three
backticks in it. -/
theorem firstField_fence {s : List Char} (h : ¬ "````rust\n".toList <:+: s) :
    firstField "```" (firstField "```rust\n" s) = firstField "```" s := by
  induction s with
  | nil => rw [firstField_nil, firstField_nil]
  | cons c r ih =>
    have hr : ¬ "````rust\n".toList <:+: r := fun hi => h (hi.trans (List.suffix_cons c r).isInfix)
    rw [firstField_cons "```rust\n"]
    by_cases hopen : "```rust\n".toList.isPrefixOf (c :: r) = true
    · have hfence : "```".toList.isPrefixOf (c :: r) = true := by
        have hp : "```".toList <+: "```rust\n".toList := by decide
        exact List.isPrefixOf_iff_prefix.2 (hp.trans (List.isPrefixOf_iff_prefix.1 hopen))
      rw [if_pos hopen, firstField_nil, firstField_cons, if_pos hfence]
    · have hsame : "```".toList.isPrefixOf (c :: firstField "```rust\n" r) =
          "```".toList.isPrefixOf (c :: r) := by
        rw [Bool.eq_iff_iff, List.isPrefixOf_iff_prefix, List.isPrefixOf_iff_prefix]
        refine ⟨fun hp => hp.trans ((List.prefix_cons_inj c).2 (isPrefix_firstField _ r)), ?_⟩
        -- a fence that begins one or two characters later would have more than three backticks
        rintro ⟨t, ht⟩
        obtain ⟨rfl, rfl⟩ : '`' = c ∧ '`' :: '`' :: t = r := by simpa using ht
        have hone : ¬ "```rust\n".toList.isPrefixOf ('`' :: '`' :: t) = true := by
          intro hp
          obtain ⟨u, hu⟩ := List.isPrefixOf_iff_prefix.1 hp
          exact h ⟨[], u, by rw [← hu]; rfl⟩
        have htwo : ¬ "```rust\n".toList.isPrefixOf ('`' :: t) = true := by
          intro hp
          obtain ⟨u, hu⟩ := List.isPrefixOf_iff_prefix.1 hp
          exact h ⟨['`'], u, by rw [← hu]; rfl⟩
        rw [firstField_cons, if_neg hone, firstField_cons, if_neg htwo]
        exact ⟨firstField "```rust\n" t, rfl⟩
      rw [if_neg hopen, firstField_cons "```", firstField_cons "```", hsame, ih hr]

end Covenant.Text
