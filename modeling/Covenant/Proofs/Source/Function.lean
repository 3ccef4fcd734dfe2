import Covenant.Merge.Sweep
import Covenant.Proofs.Text.Line

/-!
# Function headers and attributes

A line that declares a function with a body is no item header, no closing brace, no import and no
attribute, so a sweep always compares it. An attribute or a comment is its own name and opens and
closes nothing, so a sweep passes over it. Both are read off the first character that is not blank.
-/

namespace Covenant.Header

open Text

/-! ## First characters -/

theorem head?_strip {c : Char} {s : List Char} (hc : isBlank c = false) (h : s.head? = some c) :
    (strip s).head? = some c := by
  cases s with
  | nil => cases h
  | cons x s =>
    obtain rfl : x = c := Option.some.inj h
    rw [strip_cons_of_not_isBlank hc]
    rfl

theorem strip_append_of_isBlank {indent s : List Char} (h : ∀ c ∈ indent, isBlank c = true) :
    strip (indent ++ s) = strip s := by
  induction indent with
  | nil => rfl
  | cons c indent ih =>
    rw [List.cons_append, strip_cons_of_isBlank (h c List.mem_cons_self),
      ih fun x hx => h x (List.mem_cons_of_mem _ hx)]

/-- A text begins with the first character of what it begins with. -/
theorem head?_of_startsWith {p : String} {s : List Char} {a : Char} (hp : p.toList.head? = some a)
    (h : startsWith p s = true) : s.head? = some a := by
  obtain ⟨r, rfl⟩ := List.isPrefixOf_iff_prefix.1 h
  rw [List.head?_append, hp]
  rfl

theorem startsWith_of_head?_ne {p : String} {s : List Char} {a : Char}
    (hp : p.toList.head? = some a) (h : s.head? ≠ some a) : startsWith p s = false := by
  rw [Bool.eq_false_iff]
  exact fun hs => h (head?_of_startsWith hp hs)

theorem head?_of_declaresFunction {t : Line} (h : declaresFunction t = true) :
    t.head? = some 'f' ∨ t.head? = some 'e' := by
  rw [declaresFunction, Bool.or_eq_true, Bool.and_eq_true] at h
  rcases h with h | ⟨h, -⟩
  · exact .inl (head?_of_startsWith (by decide) h)
  · exact .inr (head?_of_startsWith (by decide) h)

/-! ## Words at the start -/

theorem dropWord_of_not_startsWith {word : String} {t : Line} (ht : strip t = t)
    (h : startsWith word t = false) : dropWord word t = t := by
  rw [dropWord, ht, h, if_neg Bool.false_ne_true]

theorem strip_dropWord {word : String} {t : Line} (ht : strip t = t) :
    strip (dropWord word t) = dropWord word t := by
  unfold dropWord
  split
  · exact strip_strip _
  · exact ht

theorem strip_dropVisibility {t : Line} (ht : strip t = t) :
    strip (dropVisibility t) = dropVisibility t := by
  unfold dropVisibility
  split
  · exact strip_dropWord ht
  · split
    · exact strip_dropWord ht
    · exact strip_dropWord ht

theorem dropVisibility_of_head?_ne {t : Line} (ht : strip t = t) (h : t.head? ≠ some 'p') :
    dropVisibility t = t := by
  rw [dropVisibility, ht, startsWith_of_head?_ne (by decide) h, if_neg Bool.false_ne_true,
    startsWith_of_head?_ne (by decide) h, if_neg Bool.false_ne_true,
    dropWord_of_not_startsWith ht (startsWith_of_head?_ne (by decide) h)]

/-- What is left of a text without `word` begins like what follows `word`. -/
theorem head?_dropWord {word : String} {t r : Line} {c : Char} (ht : strip t = t)
    {a : Char} (hw : word.toList.head? = some a) (h : t = word.toList ++ r)
    (hr : r.head? = some c) (hc : isBlank c = false) (hne : a ≠ c) :
    (dropWord word t).head? = some c := by
  have hstart : startsWith word t = true := List.isPrefixOf_iff_prefix.2 ⟨r, h.symm⟩
  have hcut : cut? word t = some ([], r) := by
    obtain ⟨xs, hx⟩ := List.head?_eq_some_iff.1 hw
    have hp : word.toList.isPrefixOf t = true := hstart
    rw [h, hx, List.cons_append] at hp
    rw [cut?, h, hx, List.cons_append, cutAt?, if_pos hp]
    simp
  -- the next `word` does not follow at once
  have hfield : (firstField word r).head? = some c := by
    unfold firstField
    split
    · next before after hb =>
      have hsplit := cutAt?_eq_some hb
      cases before with
      | nil =>
        rw [hsplit, List.nil_append, List.head?_append, hw] at hr
        exact absurd (Option.some.inj hr) hne
      | cons x before =>
        rw [hsplit] at hr
        exact hr
    · exact hr
  rw [dropWord, ht, hstart, if_pos rfl, secondField?, hcut]
  exact head?_strip hc hfield

/-! ## Functions -/

/-- Whether the line declares a function with a body. -/
def isFunction (line : Line) : Bool :=
  let t := strip line
  !(endsWith ";\n" t || endsWith ";" t) && declaresFunction (trimQualifiers t)

theorem declaresFunction_of_isFunction {line : Line} (h : isFunction line = true) :
    declaresFunction (trimQualifiers (strip line)) = true := by
  rw [isFunction, Bool.and_eq_true] at h
  exact h.2

theorem trimQualifiers_of_head?_ne {t : Line} (ht : strip t = t) (hp : t.head? ≠ some 'p')
    (hc : startsWith "const " t = false) (hu : startsWith "unsafe " t = false) :
    trimQualifiers t = t := by
  rw [trimQualifiers, dropVisibility_of_head?_ne ht hp, dropWord_of_not_startsWith ht hc,
    dropWord_of_not_startsWith ht hu]

/-- The characters with which the header of a function can begin. -/
theorem head?_of_isFunction {line : Line} (h : isFunction line = true) :
    (strip line).head? = some 'p' ∨ (strip line).head? = some 'c' ∨
      (strip line).head? = some 'u' ∨ (strip line).head? = some 'f' ∨
      (strip line).head? = some 'e' := by
  by_cases hp : (strip line).head? = some 'p'
  · exact .inl hp
  by_cases hc : (strip line).head? = some 'c'
  · exact .inr (.inl hc)
  by_cases hu : (strip line).head? = some 'u'
  · exact .inr (.inr (.inl hu))
  have hd := declaresFunction_of_isFunction h
  rw [trimQualifiers_of_head?_ne (strip_strip line) hp (startsWith_of_head?_ne (by decide) hc)
    (startsWith_of_head?_ne (by decide) hu)] at hd
  exact .inr (.inr (.inr (head?_of_declaresFunction hd)))

/-- Without its qualifiers an item header is no function: it begins with `i` or `t`, perhaps after
`unsafe`. -/
theorem not_declaresFunction_of_item {t : Line} (ht : strip t = t) {c : Char}
    (hc : c = 'i' ∨ c = 't')
    (h : t.head? = some c ∨ ∃ r, t = "unsafe ".toList ++ r ∧ r.head? = some c) :
    declaresFunction (dropWord "unsafe " (dropWord "const " t)) = false := by
  have hhead : (dropWord "unsafe " (dropWord "const " t)).head? = some c := by
    rcases h with h | ⟨r, hr, hrc⟩
    · have hne : ∀ a, a = 'c' ∨ a = 'u' → t.head? ≠ some a := by
        rintro a ha he
        obtain rfl := Option.some.inj (h.symm.trans he)
        revert ha
        rcases hc with rfl | rfl <;> decide
      rw [dropWord_of_not_startsWith ht (startsWith_of_head?_ne (by decide) (hne 'c' (.inl rfl))),
        dropWord_of_not_startsWith ht (startsWith_of_head?_ne (by decide) (hne 'u' (.inr rfl)))]
      exact h
    · have hu : t.head? = some 'u' := by rw [hr]; rfl
      rw [dropWord_of_not_startsWith ht (startsWith_of_head?_ne (a := 'c') (by decide)
        (by rw [hu]; decide))]
      refine head?_dropWord ht (a := 'u') (by decide) hr hrc ?_ ?_ <;>
        rcases hc with rfl | rfl <;> decide
  rw [Bool.eq_false_iff]
  intro hd
  rcases head?_of_declaresFunction hd with hf | hf <;>
  · obtain rfl := Option.some.inj (hhead.symm.trans hf)
    rcases hc with hc | hc <;> revert hc <;> decide

/-- A line that begins with none of the characters of an item header opens no item. -/
theorem opensScope_of_head?_ne {line : Line}
    (hp : (strip line).head? ≠ some 'p') (hi : (strip line).head? ≠ some 'i')
    (ht : (strip line).head? ≠ some 't') (hu : (strip line).head? ≠ some 'u') :
    opensScope line = false := by
  unfold opensScope
  rw [dropVisibility_of_head?_ne (strip_strip line) hp]
  simp only [Bool.or_eq_false_iff]
  exact ⟨⟨⟨⟨⟨startsWith_of_head?_ne (by decide) hi, startsWith_of_head?_ne (by decide) hi⟩,
    startsWith_of_head?_ne (by decide) hu⟩, startsWith_of_head?_ne (by decide) ht⟩,
    startsWith_of_head?_ne (by decide) hu⟩, startsWith_of_head?_ne (by decide) hu⟩

/-- The header of a function opens no item. -/
theorem opensScope_of_isFunction {line : Line} (h : isFunction line = true) :
    opensScope line = false := by
  have ht := strip_dropVisibility (strip_strip line)
  have key : ∀ c, c = 'i' ∨ c = 't' →
      ¬ ((dropVisibility (strip line)).head? = some c ∨
        ∃ r, dropVisibility (strip line) = "unsafe ".toList ++ r ∧ r.head? = some c) := by
    intro c hc hcases
    have hd := declaresFunction_of_isFunction h
    rw [trimQualifiers, not_declaresFunction_of_item ht hc hcases] at hd
    cases hd
  have hword : ∀ (p : String) (c : Char), (c = 'i' ∨ c = 't') → p.toList.head? = some c →
      startsWith p (dropVisibility (strip line)) = false := by
    intro p c hc hp
    rw [Bool.eq_false_iff]
    exact fun hs => key c hc (.inl (head?_of_startsWith hp hs))
  have hunsafe : ∀ (p q : String) (c : Char), (c = 'i' ∨ c = 't') →
      p.toList = "unsafe ".toList ++ q.toList → q.toList.head? = some c →
      startsWith p (dropVisibility (strip line)) = false := by
    intro p q c hc hp hq
    rw [Bool.eq_false_iff]
    intro hs
    obtain ⟨r, hr⟩ := List.isPrefixOf_iff_prefix.1 hs
    refine key c hc (.inr ⟨q.toList ++ r, ?_, ?_⟩)
    · rw [← hr, hp, List.append_assoc]
    · rw [List.head?_append, hq]
      rfl
  unfold opensScope
  simp only [Bool.or_eq_false_iff]
  exact ⟨⟨⟨⟨⟨hword _ 'i' (.inl rfl) (by decide), hword _ 'i' (.inl rfl) (by decide)⟩,
    hunsafe _ "impl " 'i' (.inl rfl) (by decide) (by decide)⟩,
    hword _ 't' (.inr rfl) (by decide)⟩,
    hunsafe _ "trait " 't' (.inr rfl) (by decide) (by decide)⟩,
    hunsafe _ "impl<" 'i' (.inl rfl) (by decide) (by decide)⟩

end Covenant.Header

namespace Covenant.Merge

open Text Header Contracts

/-- A line that closes an item begins with a brace. -/
theorem head?_of_closedBy {scope : Scope} {line : Line}
    (hs : ∀ c ∈ scope.indent, isBlank c = true) (h : scope.closedBy line = true) :
    (strip line).head? = some '}' := by
  obtain ⟨r, rfl⟩ := List.isPrefixOf_iff_prefix.1 h
  rw [List.append_assoc, strip_append_of_isBlank hs]
  exact head?_strip (by decide) rfl

/-- A line that closes an item opens none. -/
theorem opensScope_of_closedBy {scope : Scope} {line : Line}
    (hs : ∀ c ∈ scope.indent, isBlank c = true) (h : scope.closedBy line = true) :
    opensScope line = false := by
  have hne : ∀ a, a ≠ '}' → (strip line).head? ≠ some a := by
    intro a ha he
    rw [head?_of_closedBy hs h] at he
    exact ha (Option.some.inj he).symm
  exact opensScope_of_head?_ne (hne 'p' (by decide)) (hne 'i' (by decide)) (hne 't' (by decide))
    (hne 'u' (by decide))

theorem closedBy_of_head?_ne {scope : Scope} {line : Line}
    (hs : ∀ c ∈ scope.indent, isBlank c = true) (h : (strip line).head? ≠ some '}') :
    scope.closedBy line = false := by
  rw [Bool.eq_false_iff]
  exact fun hc => h (head?_of_closedBy hs hc)

/-- The header of a function closes nothing and is no import or attribute. -/
theorem plain_of_isFunction {line : Line} (h : isFunction line = true) :
    (∀ scope : Scope, (∀ c ∈ scope.indent, isBlank c = true) → scope.closedBy line = false) ∧
      isImport line = false ∧ isOuterAttribute line = false := by
  have hhead := head?_of_isFunction h
  refine ⟨fun scope hs => closedBy_of_head?_ne hs ?_, ?_, ?_⟩
  · intro he
    simp [he] at hhead
  · rw [Bool.eq_false_iff]
    intro hi
    -- `use` is neither `unsafe` nor a function
    obtain ⟨r, rfl⟩ := List.isPrefixOf_iff_prefix.1 hi
    have hstrip : strip ("use".toList ++ r) = 'u' :: 's' :: 'e' :: stripRight r := by
      show strip ('u' :: 's' :: 'e' :: r) = _
      rw [strip_cons_of_not_isBlank (by decide), stripRight_cons_of_not_isBlank (by decide),
        stripRight_cons_of_not_isBlank (by decide)]
    have hd := declaresFunction_of_isFunction h
    rw [trimQualifiers_of_head?_ne (strip_strip _)] at hd
    · have := head?_of_declaresFunction hd
      rw [hstrip] at this
      simp at this
    · rw [hstrip]
      simp
    · rw [hstrip]
      exact startsWith_of_head?_ne (a := 'c') (by decide) (by simp)
    · rw [hstrip]
      simp [startsWith, List.isPrefixOf]
  · rw [Bool.eq_false_iff]
    intro ho
    have hline : line.head? = some '#' := by
      rw [isOuterAttribute, Bool.or_eq_true] at ho
      rcases ho with ho | ho
      · exact head?_of_startsWith (by decide) ho
      · exact head?_of_startsWith (by decide) ho
    simp [head?_strip (by decide) hline] at hhead

/-! ## Attributes -/

theorem head?_of_isAttribute {t : Line} (h : isAttribute t = true) :
    (strip t).head? = some '#' ∨ (strip t).head? = some '/' := by
  rw [isAttribute, Bool.or_eq_true] at h
  rcases h with h | h
  · exact .inl (head?_of_startsWith (by decide) h)
  · exact .inr (head?_of_startsWith (by decide) h)

/-- An attribute opens and closes nothing and is its own name. -/
theorem plain_of_isAttribute {t : Line} (h : isAttribute t = true) :
    opensScope t = false ∧
      (∀ scope : Scope, (∀ c ∈ scope.indent, isBlank c = true) → scope.closedBy t = false) ∧
      declaredName (strip t) = strip t := by
  have hhead := head?_of_isAttribute h
  have hne : ∀ a, a ≠ '#' → a ≠ '/' → (strip t).head? ≠ some a := by
    intro a h₁ h₂ he
    rw [he] at hhead
    rcases hhead with hh | hh
    · exact h₁ (Option.some.inj hh)
    · exact h₂ (Option.some.inj hh)
  have hp := hne 'p' (by decide) (by decide)
  have hu := hne 'u' (by decide) (by decide)
  have hc := hne 'c' (by decide) (by decide)
  refine ⟨?_, fun scope hs => closedBy_of_head?_ne hs (hne '}' (by decide) (by decide)), ?_⟩
  · exact opensScope_of_head?_ne hp (hne 'i' (by decide) (by decide))
      (hne 't' (by decide) (by decide)) hu
  · have htrim : trimQualifiers (strip t) = strip t :=
      trimQualifiers_of_head?_ne (strip_strip t) hp (startsWith_of_head?_ne (by decide) hc)
        (startsWith_of_head?_ne (by decide) hu)
    have hd : declaresFunction (strip t) = false := by
      rw [Bool.eq_false_iff]
      intro hd
      rcases head?_of_declaresFunction hd with hf | hf
      · exact hne 'f' (by decide) (by decide) hf
      · exact hne 'e' (by decide) (by decide) hf
    unfold declaredName
    simp only [htrim, hd]
    simp

end Covenant.Merge
