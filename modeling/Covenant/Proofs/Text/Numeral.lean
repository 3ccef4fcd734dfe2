import Covenant.Text.Numeral

/-!
# What is read as a whole number

`Writes` is the grammar of whole numbers: blanks, perhaps a sign, digits with at most one underscore
between two of them, and blanks. Reading accepts exactly the texts of the grammar
(`readNumeral?_eq_some_iff`). These are not closed under taking beginnings, so the longest beginning
that writes a number is found by trying them all, the longest first
(`leadingNumeral?_eq_some_iff`).
-/

namespace Covenant.Text

/-! ## The grammar -/

/-- The text is a row of `count` digits with at most one underscore between two of them, and writes
`value` in base ten. -/
inductive Digits (t : DigitTable) : List Char → Nat → Nat → Prop
  | one {c : Char} {d : Nat} (h : t.digit? c = some d) : Digits t [c] d 1
  | next {s : List Char} {c : Char} {value count d : Nat} (hs : Digits t s value count)
    (h : t.digit? c = some d) : Digits t (s ++ [c]) (10 * value + d) (count + 1)
  | apart {s : List Char} {c : Char} {value count d : Nat} (hs : Digits t s value count)
    (h : t.digit? c = some d) : Digits t (s ++ ['_', c]) (10 * value + d) (count + 1)

/-- The text is a row of digits and blanks, and writes the number. -/
inductive WritesUnsigned (t : DigitTable) : List Char → Nat → Prop
  | intro {digits after : List Char} {value count : Nat} (h : Digits t digits value count)
    (hcount : count ≤ 4300) (hafter : ∀ c ∈ after, isNumeralBlank c = true) :
    WritesUnsigned t (digits ++ after) value

/-- The text writes the whole number. -/
inductive Writes (t : DigitTable) : List Char → Int → Prop
  | unsigned {before s : List Char} {n : Nat} (hbefore : ∀ c ∈ before, isNumeralBlank c = true)
    (h : WritesUnsigned t s n) : Writes t (before ++ s) n
  | plus {before s : List Char} {n : Nat} (hbefore : ∀ c ∈ before, isNumeralBlank c = true)
    (h : WritesUnsigned t s n) : Writes t (before ++ '+' :: s) n
  | minus {before s : List Char} {n : Nat} (hbefore : ∀ c ∈ before, isNumeralBlank c = true)
    (h : WritesUnsigned t s n) : Writes t (before ++ '-' :: s) (-n)

/-! ## Digits, signs and blanks -/

variable {t : DigitTable}

theorem digit?_eq_none_iff {c : Char} :
    t.digit? c = none ↔ ∀ z ∈ t.zeros, c.toNat < z ∨ z + 10 ≤ c.toNat := by
  rw [DigitTable.digit?, Option.map_eq_none_iff, List.find?_eq_none]
  refine forall₂_congr fun z _ => ?_
  rw [Bool.and_eq_true, decide_eq_true_eq, decide_eq_true_eq]
  omega

/-- A blank is no digit. -/
theorem digit?_of_isBlank {c : Char} (h : isBlank c = true) : t.digit? c = none := by
  refine digit?_eq_none_iff.2 fun z hz => Classical.byContradiction fun hno => ?_
  have hsolid := t.solid z hz (c.toNat - z) (by omega)
  rw [Nat.add_sub_of_le (by omega)] at hsolid
  exact absurd (h.symm.trans hsolid) (by decide)

/-- Of the ASCII characters only the ten digits are in a table. -/
theorem digit?_ascii {c : Char} (hc : c.toNat < 0x80) (h : c.toNat < 0x30 ∨ 0x3a ≤ c.toNat) :
    t.digit? c = none := by
  refine digit?_eq_none_iff.2 fun z hz => ?_
  obtain ⟨rest, hzeros⟩ := List.head?_eq_some_iff.1 t.ascii.1
  have hrest := t.ascii.2
  rw [hzeros] at hz hrest
  rcases List.mem_cons.1 hz with rfl | hz
  · exact h
  · exact .inl (Nat.lt_of_lt_of_le hc (hrest z hz))

theorem isBlank_of_isNumeralBlank {c : Char} (h : isNumeralBlank c = true) : isBlank c = true := by
  rw [isNumeralBlank, Bool.and_eq_true] at h
  exact h.1

theorem isNumeralBlank_of_digit {c : Char} {d : Nat} (h : t.digit? c = some d) :
    isNumeralBlank c = false := by
  rw [Bool.eq_false_iff]
  intro hblank
  rw [digit?_of_isBlank (isBlank_of_isNumeralBlank hblank)] at h
  cases h

theorem ne_of_digit {c x : Char} {d : Nat} (h : t.digit? c = some d) (hx : t.digit? x = none) :
    c ≠ x := by
  rintro rfl
  rw [hx] at h
  cases h

theorem moreDigits_digit {c : Char} {d : Nat} (h : t.digit? c = some d) (r : List Char) :
    moreDigits t (c :: r) = (d :: (moreDigits t r).1, (moreDigits t r).2) := by
  have hc : c ≠ '_' := ne_of_digit h (digit?_ascii (by decide) (by decide))
  simp [moreDigits, hc, h]

theorem moreDigits_underscore {c : Char} {d : Nat} (h : t.digit? c = some d) (r : List Char) :
    moreDigits t ('_' :: c :: r) = (d :: (moreDigits t r).1, (moreDigits t r).2) := by
  simp [moreDigits, h]

theorem moreDigits_blank {s : List Char} (h : ∀ c ∈ s, isNumeralBlank c = true) :
    moreDigits t s = ([], s) := by
  cases s with
  | nil => rfl
  | cons c r =>
    have hblank := h c List.mem_cons_self
    have hc : c ≠ '_' := by
      rintro rfl
      revert hblank
      decide
    simp [moreDigits, hc, digit?_of_isBlank (isBlank_of_isNumeralBlank hblank)]

/-! ## Rows of digits -/

/-- A row of digits goes on with the digits that are read. -/
theorem Digits.moreDigits {s : List Char} {value count : Nat} (h : Digits t s value count)
    (r : List Char) :
    ∃ more, r = more ++ (Text.moreDigits t r).2 ∧
      Digits t (s ++ more) ((Text.moreDigits t r).1.foldl (fun n d => 10 * n + d) value)
        (count + (Text.moreDigits t r).1.length) := by
  induction r using Text.moreDigits.induct t generalizing s value count with
  | case1 => exact ⟨[], rfl, by simpa [Text.moreDigits] using h⟩
  | case2 => exact ⟨[], rfl, by simpa [Text.moreDigits] using h⟩
  | case3 c r d hd ih =>
    obtain ⟨more, hr, hmore⟩ := ih (h.apart hd)
    rw [moreDigits_underscore hd]
    refine ⟨'_' :: c :: more, by simp [← hr], ?_⟩
    simpa [Nat.add_assoc, Nat.add_comm 1] using hmore
  | case4 c r hd =>
    exact ⟨[], by simp [Text.moreDigits, hd], by simpa [Text.moreDigits, hd] using h⟩
  | case5 c r _ _ d hd ih =>
    obtain ⟨more, hr, hmore⟩ := ih (h.next hd)
    rw [moreDigits_digit hd]
    refine ⟨c :: more, by simp [← hr], ?_⟩
    simpa [Nat.add_assoc, Nat.add_comm 1] using hmore
  | case6 c r hnil hcons hd =>
    have hstop : Text.moreDigits t (c :: r) = ([], c :: r) := by
      rw [Text.moreDigits.eq_4 t c r hnil hcons, hd]
    exact ⟨[], by simp [hstop], by simpa [hstop] using h⟩

/-- A row of digits is read, and the reading goes on with what follows. -/
theorem Digits.exists_reading {s : List Char} {value count : Nat} (h : Digits t s value count) :
    ∃ c r d ds, s = c :: r ∧ t.digit? c = some d ∧ value = ofDigits (d :: ds) ∧
      count = (d :: ds).length ∧
      ∀ u, Text.moreDigits t (r ++ u) =
        (ds ++ (Text.moreDigits t u).1, (Text.moreDigits t u).2) := by
  have hsnoc (d : Nat) (ds : List Nat) (x : Nat) :
      10 * ofDigits (d :: ds) + x = ofDigits (d :: (ds ++ [x])) := by
    simp [ofDigits]
  induction h with
  | @one c d h => exact ⟨c, [], d, [], rfl, h, by simp [ofDigits], rfl, fun u => rfl⟩
  | @next s x value count n hs h ih =>
    obtain ⟨c, r, d, ds, rfl, hc, rfl, rfl, hread⟩ := ih
    refine ⟨c, r ++ [x], d, ds ++ [n], rfl, hc, hsnoc d ds n, by simp, fun u => ?_⟩
    rw [List.append_assoc, List.singleton_append, hread, moreDigits_digit h]
    simp
  | @apart s x value count n hs h ih =>
    obtain ⟨c, r, d, ds, rfl, hc, rfl, rfl, hread⟩ := ih
    refine ⟨c, r ++ ['_', x], d, ds ++ [n], rfl, hc, hsnoc d ds n, by simp, fun u => ?_⟩
    rw [List.append_assoc, List.cons_append, List.singleton_append, hread, moreDigits_underscore h]
    simp

theorem readUnsigned?_digit {c : Char} {d : Nat} (h : t.digit? c = some d) (r : List Char) :
    readUnsigned? t (c :: r) =
      if (moreDigits t r).2.all isNumeralBlank && (d :: (moreDigits t r).1).length ≤ digitLimit then
        some (ofDigits (d :: (moreDigits t r).1)) else none := by
  simp only [readUnsigned?, h]

theorem readUnsigned?_eq_some_iff {s : List Char} {n : Nat} :
    readUnsigned? t s = some n ↔ WritesUnsigned t s n := by
  constructor
  · intro h
    cases s with
    | nil => cases h
    | cons c r =>
      cases hd : t.digit? c with
      | none => simp [readUnsigned?, hd] at h
      | some d =>
        rw [readUnsigned?_digit hd, Option.ite_none_right_eq_some, Bool.and_eq_true,
          List.all_eq_true, decide_eq_true_eq] at h
        obtain ⟨⟨hafter, hcount⟩, hn⟩ := h
        obtain ⟨more, hr, hmore⟩ := (Digits.one hd).moreDigits r
        have hvalue : (moreDigits t r).1.foldl (fun n d => 10 * n + d) d = n := by
          rw [← Option.some.inj hn]
          simp [ofDigits]
        rw [hvalue] at hmore
        rw [hr, ← List.cons_append]
        refine .intro hmore ?_ hafter
        rw [List.length_cons, digitLimit] at hcount
        omega
  · rintro ⟨h, hcount, hafter⟩
    obtain ⟨c, r, d, ds, rfl, hd, rfl, rfl, hread⟩ := h.exists_reading
    rw [List.cons_append, readUnsigned?_digit hd, hread, moreDigits_blank hafter, List.append_nil,
      if_pos]
    rw [Bool.and_eq_true, List.all_eq_true, decide_eq_true_eq]
    exact ⟨hafter, hcount⟩

/-- The first character of a number without a sign is neither blank nor a sign. -/
theorem WritesUnsigned.exists_head {s : List Char} {n : Nat} (h : WritesUnsigned t s n) :
    ∃ c r, s = c :: r ∧ isNumeralBlank c = false ∧ c ≠ '-' ∧ c ≠ '+' := by
  obtain ⟨h, -, -⟩ := h
  obtain ⟨c, r, d, ds, rfl, hd, -, -, -⟩ := h.exists_reading
  exact ⟨c, r ++ _, rfl, isNumeralBlank_of_digit hd,
    ne_of_digit hd (digit?_ascii (by decide) (by decide)),
    ne_of_digit hd (digit?_ascii (by decide) (by decide))⟩

theorem dropWhile_blanks {before : List Char} (h : ∀ c ∈ before, isNumeralBlank c = true) {c : Char}
    (hc : isNumeralBlank c = false) (r : List Char) :
    (before ++ c :: r).dropWhile isNumeralBlank = c :: r := by
  rw [List.dropWhile_append_of_pos h, List.dropWhile_cons_of_neg (by simp [hc])]

/-- What is read without a sign, as a whole number. -/
theorem readUnsigned?_cast_eq_some_iff {s : List Char} {m : Int} :
    (do
      let n ← readUnsigned? t s
      pure (n : Int)) = some m ↔ ∃ n : Nat, WritesUnsigned t s n ∧ (n : Int) = m := by
  cases h : readUnsigned? t s with
  | none =>
    constructor
    · intro hm
      cases hm
    · rintro ⟨n, hn, -⟩
      rw [readUnsigned?_eq_some_iff.2 hn] at h
      cases h
  | some n =>
    have hn := readUnsigned?_eq_some_iff.1 h
    constructor
    · intro hm
      exact ⟨n, hn, Option.some.inj hm⟩
    · rintro ⟨k, hk, rfl⟩
      rw [readUnsigned?_eq_some_iff.2 hk] at h
      rw [Option.some.inj h]
      rfl

theorem writes_of_readNumeral? {s : List Char} {n : Int} (h : readNumeral? t s = some n) :
    Writes t s n := by
  have hs : s = s.takeWhile isNumeralBlank ++ s.dropWhile isNumeralBlank :=
    List.takeWhile_append_dropWhile.symm
  have hbefore : ∀ c ∈ s.takeWhile isNumeralBlank, isNumeralBlank c = true :=
    List.all_eq_true.1 List.all_takeWhile
  revert h
  fun_cases readNumeral? t s with
  | case1 r hr =>
    intro h
    obtain ⟨m, hm, rfl⟩ := Option.map_eq_some_iff.1 h
    obtain ⟨k, hk, rfl⟩ := readUnsigned?_cast_eq_some_iff.1 hm
    rw [hs, hr]
    exact .minus hbefore hk
  | case2 r hr =>
    intro h
    obtain ⟨m, hm, rfl⟩ := Option.map_eq_some_iff.1 h
    obtain ⟨k, hk, rfl⟩ := readUnsigned?_cast_eq_some_iff.1 hm
    rw [hs, hr]
    exact .plus hbefore hk
  | case3 =>
    intro h
    obtain ⟨m, hm, rfl⟩ := Option.map_eq_some_iff.1 h
    obtain ⟨k, hk, rfl⟩ := readUnsigned?_cast_eq_some_iff.1 hm
    rw [hs]
    exact .unsigned hbefore hk

theorem readNumeral?_eq_some_iff {s : List Char} {n : Int} :
    readNumeral? t s = some n ↔ Writes t s n := by
  refine ⟨writes_of_readNumeral?, fun h => ?_⟩
  cases h with
  | @unsigned before s n hbefore h =>
    obtain ⟨c, r, rfl, hblank, hminus, hplus⟩ := h.exists_head
    simp [readNumeral?, dropWhile_blanks hbefore hblank, hminus, hplus,
      readUnsigned?_eq_some_iff.2 h]
  | @plus before s n hbefore h =>
    simp [readNumeral?, dropWhile_blanks hbefore (c := '+') (by decide),
      readUnsigned?_eq_some_iff.2 h]
  | @minus before s n hbefore h =>
    simp [readNumeral?, dropWhile_blanks hbefore (c := '-') (by decide),
      readUnsigned?_eq_some_iff.2 h]

/-! ## The longest beginning -/

/-- `p` is the longest non-empty beginning of the text that writes a number, and the number is
`n`. -/
structure IsLongestNumeral (t : DigitTable) (s p : List Char) (n : Int) : Prop where
  isPrefix : p <+: s
  ne_nil : p ≠ []
  writes : Writes t p n
  longest : ∀ q m, q <+: s → Writes t q m → q.length ≤ p.length

/-- No non-empty beginning of the text writes a number. -/
def NoNumeral (t : DigitTable) (s : List Char) : Prop :=
  ∀ p n, p <+: s → p ≠ [] → ¬ Writes t p n

theorem readLongest?_eq_none {s : List Char} {k : Nat} (h : readLongest? t s k = none) :
    ∀ j, 0 < j → j ≤ k → readNumeral? t (s.take j) = none := by
  induction k with
  | zero =>
    intro j hj hk
    omega
  | succ k ih =>
    cases hread : readNumeral? t (s.take (k + 1)) with
    | some n =>
      rw [readLongest?, hread] at h
      cases h
    | none =>
      rw [readLongest?, hread] at h
      intro j hj hk
      rcases Nat.lt_or_ge k j with hlt | hle
      · obtain rfl : j = k + 1 := by omega
        exact hread
      · exact ih h j hj hle

theorem readLongest?_eq_some {s : List Char} {k : Nat} {n : Int} (h : readLongest? t s k = some n) :
    ∃ j, 0 < j ∧ j ≤ k ∧ readNumeral? t (s.take j) = some n ∧
      ∀ i, j < i → i ≤ k → readNumeral? t (s.take i) = none := by
  induction k with
  | zero => cases h
  | succ k ih =>
    cases hread : readNumeral? t (s.take (k + 1)) with
    | some m =>
      rw [readLongest?, hread] at h
      refine ⟨k + 1, Nat.succ_pos k, Nat.le_refl _, hread.trans h, fun i hi hk => ?_⟩
      omega
    | none =>
      rw [readLongest?, hread] at h
      obtain ⟨j, hj, hjk, hn, hmore⟩ := ih h
      refine ⟨j, hj, Nat.le_succ_of_le hjk, hn, fun i hi hk => ?_⟩
      rcases Nat.lt_or_ge k i with hlt | hle
      · obtain rfl : i = k + 1 := by omega
        exact hread
      · exact hmore i hi hle

theorem noNumeral_of_leadingNumeral? {s : List Char} (h : leadingNumeral? t s = none) :
    NoNumeral t s := by
  intro p n hp hne hwrites
  have hnone := readLongest?_eq_none h p.length (List.length_pos_iff.2 hne) hp.length_le
  rw [← List.prefix_iff_eq_take.1 hp, readNumeral?_eq_some_iff.2 hwrites] at hnone
  cases hnone

theorem isLongest_of_leadingNumeral? {s : List Char} {n : Int} (h : leadingNumeral? t s = some n) :
    ∃ p, IsLongestNumeral t s p n := by
  obtain ⟨j, hj, hjs, hn, hmore⟩ := readLongest?_eq_some h
  have hlength : (s.take j).length = j := by
    rw [List.length_take]
    omega
  refine ⟨s.take j, List.take_prefix j s, ?_, readNumeral?_eq_some_iff.1 hn, fun q m hq hm => ?_⟩
  · intro hnil
    rw [hnil, List.length_nil] at hlength
    omega
  · -- a longer one would have been found first
    rw [hlength]
    refine Nat.le_of_not_lt fun hlt => ?_
    have hnone := hmore q.length hlt hq.length_le
    rw [← List.prefix_iff_eq_take.1 hq, readNumeral?_eq_some_iff.2 hm] at hnone
    cases hnone

/-- A text writes one number at most. -/
theorem Writes.unique {s : List Char} {n m : Int} (hn : Writes t s n) (hm : Writes t s m) :
    n = m := by
  rw [← readNumeral?_eq_some_iff] at hn hm
  exact Option.some.inj (hn.symm.trans hm)

theorem IsLongestNumeral.unique {s p q : List Char} {n m : Int} (hp : IsLongestNumeral t s p n)
    (hq : IsLongestNumeral t s q m) : n = m := by
  have hlength : p.length = q.length :=
    Nat.le_antisymm (hq.longest p n hp.isPrefix hp.writes) (hp.longest q m hq.isPrefix hq.writes)
  have hpq : p <+: q :=
    List.prefix_of_prefix_length_le hp.isPrefix hq.isPrefix (Nat.le_of_eq hlength)
  have hsame : p = q := hpq.eq_of_length hlength
  subst hsame
  exact hp.writes.unique hq.writes

theorem leadingNumeral?_eq_some_iff {s : List Char} {n : Int} :
    leadingNumeral? t s = some n ↔ ∃ p, IsLongestNumeral t s p n := by
  refine ⟨isLongest_of_leadingNumeral?, ?_⟩
  rintro ⟨p, hp⟩
  cases hread : leadingNumeral? t s with
  | none => exact absurd hp.writes (noNumeral_of_leadingNumeral? hread p n hp.isPrefix hp.ne_nil)
  | some m =>
    obtain ⟨q, hq⟩ := isLongest_of_leadingNumeral? hread
    rw [hp.unique hq]

theorem leadingNumeral?_eq_none_iff {s : List Char} :
    leadingNumeral? t s = none ↔ NoNumeral t s := by
  refine ⟨noNumeral_of_leadingNumeral?, fun h => ?_⟩
  cases hread : leadingNumeral? t s with
  | none => rfl
  | some m =>
    obtain ⟨q, hq⟩ := isLongest_of_leadingNumeral? hread
    exact absurd hq.writes (h q m hq.isPrefix hq.ne_nil)

end Covenant.Text
