import Covenant.Proofs.Source.Owner

/-!
# The name in the header of a function

The header of a function is its visibility, words with a space after each, its name, and a bracket
with anything behind it. When the visibility, `const` or `unsafe` is taken off, the line is cut at
the next occurrence of that word as well. No such word begins before the bracket, so the cuts are
behind it and the name is read (`declaredName_text`), whatever is repeated in the generics and the
parameters.
-/

namespace Covenant.Text

/-! ## Cuts behind a given place -/

theorem firstField_append {sep : String} {front : List Char} (back : List Char)
    (h : ∀ s, s <:+ front → s ≠ [] → ¬ sep.toList <+: s ++ back) :
    firstField sep (front ++ back) = front ++ firstField sep back := by
  induction front with
  | nil => rfl
  | cons c front ih =>
    have hno : ¬ sep.toList.isPrefixOf (c :: (front ++ back)) = true := by
      rw [List.isPrefixOf_iff_prefix]
      exact h (c :: front) List.suffix_rfl (List.cons_ne_nil c front)
    rw [List.cons_append, firstField_cons, if_neg hno,
      ih fun s hs => h s (hs.trans (List.suffix_cons c front))]
    rfl

/-- What a text begins with ends before the character `c`, or goes on behind it. -/
theorem prefix_append_cons {w u s : List Char} {c : Char} (h : w <+: u ++ c :: s) :
    w <+: u ∨ ∃ v, w = u ++ c :: v ∧ v <+: s := by
  rcases List.prefix_or_prefix_of_prefix h (List.prefix_append u (c :: s)) with hw | ⟨t, rfl⟩
  · exact .inl hw
  · have ht : t <+: c :: s := (List.prefix_append_right_inj u).1 h
    rcases List.prefix_cons_iff.1 ht with rfl | ⟨v, rfl, hv⟩
    · rw [List.append_nil]
      exact .inl List.prefix_rfl
    · exact .inr ⟨v, rfl, hv⟩

/-- A separator that does not occur in a text does not begin in it either, unless it goes on behind
that text. -/
theorem firstField_past {sep : String} {t : List Char} {c : Char} (back : List Char)
    (ht : ¬ sep.toList <:+: t)
    (h : ∀ u v, u <:+ t → sep.toList = u ++ c :: v → ¬ v <+: back) :
    firstField sep (t ++ c :: back) = t ++ c :: firstField sep back := by
  have hpast : firstField sep (t ++ [c] ++ back) = t ++ [c] ++ firstField sep back := by
    refine firstField_append back fun s hs hne hp => ?_
    rcases List.suffix_concat_iff.1 hs with rfl | ⟨u, rfl, hu⟩
    · exact hne rfl
    · rw [List.append_assoc] at hp
      rcases prefix_append_cons hp with hp | ⟨v, hv, hp⟩
      · exact ht (hp.isInfix.trans hu.isInfix)
      · exact h u v hu hv hp
  simpa using hpast

theorem firstField_eq_takeWhile {sep : String} {d : Char} (hsep : sep.toList = [d])
    (s : List Char) : firstField sep s = s.takeWhile (· != d) := by
  induction s with
  | nil => rw [firstField_nil, List.takeWhile_nil]
  | cons c r ih =>
    rw [firstField_cons, hsep, ih]
    by_cases hc : d = c
    · simp [hc]
    · simp [hc, Ne.symm hc]

theorem takeWhile_append_cons {d : Char} {s : List Char} (hs : d ∉ s) (r : List Char) :
    (s ++ d :: r).takeWhile (· != d) = s := by
  have hall : ∀ c ∈ s, (c != d) = true := by
    intro c hc
    exact bne_iff_ne.2 fun h => hs (h ▸ hc)
  rw [List.takeWhile_append_of_pos hall, List.takeWhile_cons_of_neg (by simp), List.append_nil]

theorem lastField_append_cons {d : Char} {s : List Char} (hs : d ∉ s) (front : List Char) :
    lastField d (front ++ d :: s) = s := by
  have hrev : (front ++ d :: s).reverse = s.reverse ++ d :: front.reverse := by simp
  rw [lastField, hrev, takeWhile_append_cons (by simpa using hs), List.reverse_reverse]

theorem stripRight_append_cons {c : Char} (h : isBlank c = false) (front s : List Char) :
    stripRight (front ++ c :: s) = front ++ c :: stripRight s := by
  have hrev : (front ++ c :: s).reverse = s.reverse ++ c :: front.reverse := by simp
  have hc : (c :: front.reverse).dropWhile isBlank = c :: front.reverse :=
    List.dropWhile_cons_of_neg (by simp [h])
  rw [stripRight, stripRight, hrev, List.dropWhile_append, hc]
  cases hs : s.reverse.dropWhile isBlank with
  | nil => simp
  | cons a r => simp

theorem strip_eq_stripRight {s : List Char} {a : Char} (ha : isBlank a = false)
    (h : s.head? = some a) : strip s = stripRight s := by
  cases s with
  | nil => cases h
  | cons x s =>
    obtain rfl : x = a := Option.some.inj h
    rw [strip_cons_of_not_isBlank ha, stripRight_cons_of_not_isBlank ha]

end Covenant.Text

namespace Covenant.Header

open Text

/-! ## Headers in parts -/

/-- Where a function can be used. -/
inductive Visibility
  | inherited
  | everywhere
  | crate
  | parent
  deriving DecidableEq, Repr

/-- The visibility as it stands in front of a header. -/
def Visibility.text : Visibility → String
  | .inherited => ""
  | .everywhere => "pub "
  | .crate => "pub(crate) "
  | .parent => "pub(super) "

/-- The parts of the header of a function. -/
structure Declaration where
  visibility : Visibility
  isConst : Bool
  isUnsafe : Bool
  abi : Option (List Char)
  name : Name
  /-- Whether generics follow the name, and not its parameters. -/
  isGeneric : Bool
  /-- What stands behind the bracket after the name. -/
  tail : Line

/-- The text has no space and no opening bracket in it. -/
def Solid (w : List Char) : Prop := ' ' ∉ w ∧ '(' ∉ w ∧ '<' ∉ w

instance (w : List Char) : Decidable (Solid w) :=
  inferInstanceAs (Decidable (' ' ∉ w ∧ '(' ∉ w ∧ '<' ∉ w))

theorem Solid.bracket_notMem {w : List Char} (h : Solid w) {b : Char} (hb : b = '(' ∨ b = '<') :
    b ∉ w := by
  rcases hb with rfl | rfl
  · exact h.2.1
  · exact h.2.2

/-- The words, each with a space after it. -/
def spaced (words : List (List Char)) : Line := words.flatMap (· ++ [' '])

theorem spaced_cons (w : List Char) (words : List (List Char)) :
    spaced (w :: words) = w ++ ' ' :: spaced words := by
  simp [spaced]

namespace Declaration

/-- The words that say how the function is called from outside. -/
def externWords (abi : Option (List Char)) : List (List Char) :=
  match abi with
  | some abi => ["extern".toList, '"' :: abi ++ ['"']]
  | none => []

/-- The words before the name, without `const` and `unsafe`. -/
def lastWords (d : Declaration) : List (List Char) := externWords d.abi ++ ["fn".toList]

/-- The words before the name, without `const`. -/
def laterWords (d : Declaration) : List (List Char) :=
  (if d.isUnsafe then ["unsafe".toList] else []) ++ d.lastWords

/-- The words between the visibility and the name. -/
def words (d : Declaration) : List (List Char) :=
  (if d.isConst then ["const".toList] else []) ++ d.laterWords

/-- The bracket after the name. -/
def bracket (d : Declaration) : Char := if d.isGeneric then '<' else '('

/-- The header as a line. -/
def text (d : Declaration) : Line :=
  d.visibility.text.toList ++ (spaced d.words ++ (d.name ++ d.bracket :: d.tail))

/-- The line is the header of a function with a body, without blanks around it. Neither the name,
which may be any identifier, nor the calling convention has spaces or opening brackets. -/
structure IsHeader (d : Declaration) : Prop where
  name : Solid d.name
  abi : ∀ abi ∈ d.abi, Solid abi
  stripped : strip d.text = d.text
  hasBody : endsWith ";" d.text = false
  not_crate : ¬ "crate) ".toList <+: d.tail
  not_super : ¬ "super) ".toList <+: d.tail

end Declaration

/-! ## Words that are taken off -/

/-- No word ends like the separator, so none of them is cut. -/
theorem firstField_spaced {sep : String} {w : List Char} {e : Char}
    (hsep : sep.toList = w ++ [' ']) (hw : ' ' ∉ w) (he : w.getLast? = some e)
    {words : List (List Char)} (hwords : ∀ t ∈ words, ' ' ∉ t ∧ t.getLast? ≠ some e)
    (back : Line) :
    firstField sep (spaced words ++ back) = spaced words ++ firstField sep back := by
  induction words with
  | nil => rfl
  | cons t words ih =>
    obtain ⟨ht, hend⟩ := hwords t List.mem_cons_self
    have hpast : ∀ u v, u <:+ t → sep.toList = u ++ ' ' :: v → ¬ v <+: spaced words ++ back := by
      intro u v hu hv _
      have hu' : ' ' ∉ u := fun h => ht (hu.subset h)
      -- both end at their first space
      have huw : u = w := by
        rw [← takeWhile_append_cons hu' v, ← hv, hsep, takeWhile_append_cons hw]
      obtain ⟨front, rfl⟩ := hu
      rw [huw, List.getLast?_append, he] at hend
      exact hend rfl
    rw [spaced_cons, List.append_assoc, List.cons_append,
      firstField_past _ (fun hi => ht (hi.subset (by simp [hsep]))) hpast,
      ih fun x hx => hwords x (List.mem_cons_of_mem _ hx), List.append_assoc, List.cons_append]

theorem cut?_append (sep : String) (s : List Char) : cut? sep (sep.toList ++ s) = some ([], s) :=
  cutAt?_eq_some_iff.2 ⟨rfl, fun _ _ _ => Nat.zero_le _⟩

/-- A word at the start is taken off. The line is cut behind the bracket at most. -/
theorem dropWord_spaced {word : String} {w : List Char} {e : Char}
    (hword : word.toList = w ++ [' ']) (hw : ' ' ∉ w) (he : w.getLast? = some e)
    {words : List (List Char)} (hwords : ∀ t ∈ words, ' ' ∉ t ∧ t.getLast? ≠ some e)
    {a : Char} (hhead : (spaced words).head? = some a) (ha : isBlank a = false)
    {name : Name} {c : Char} {tail : Line} (hname : ' ' ∉ name) (hc : isBlank c = false)
    (htail : ∀ u v, u <:+ name → word.toList = u ++ c :: v → ¬ v <+: tail)
    (hstrip : strip (word.toList ++ (spaced words ++ (name ++ c :: tail))) =
      word.toList ++ (spaced words ++ (name ++ c :: tail))) :
    ∃ tail', dropWord word (word.toList ++ (spaced words ++ (name ++ c :: tail))) =
      spaced words ++ (name ++ c :: tail') := by
  have hspace : ' ' ∈ word.toList := by simp [hword]
  have hstart : startsWith word (word.toList ++ (spaced words ++ (name ++ c :: tail))) = true :=
    List.isPrefixOf_iff_prefix.2 (List.prefix_append _ _)
  have hfirst : (spaced words ++ (name ++ c :: firstField word tail)).head? = some a := by
    rw [List.head?_append, hhead]
    rfl
  refine ⟨stripRight (firstField word tail), ?_⟩
  rw [dropWord, hstrip, if_pos hstart, secondField?, cut?_append, Option.map_some, Option.getD_some,
    firstField_spaced hword hw he hwords,
    firstField_past tail (fun hi => hname (hi.subset hspace)) htail,
    strip_eq_stripRight ha hfirst, ← List.append_assoc, stripRight_append_cons hc,
    List.append_assoc]

/-- The words have no space and no opening bracket. The first begins with one of `starts`, and each
ends with one of `ends`. -/
structure AreWords (starts ends : List Char) (words : List (List Char)) : Prop where
  solid : ∀ w ∈ words, Solid w
  head : ∃ a ∈ starts, (spaced words).head? = some a
  last : ∀ w ∈ words, ∃ e ∈ ends, w.getLast? = some e

namespace AreWords

variable {starts ends w : List Char} {words : List (List Char)} {a e : Char}

theorem optional (h : AreWords starts ends words) (b : Bool)
    (hw : Solid w) (hhead : w.head? = some a) (hlast : w.getLast? = some e) :
    AreWords (a :: starts) (e :: ends) ((if b then [w] else []) ++ words) := by
  cases b with
  | false =>
    obtain ⟨x, hx, hstart⟩ := h.head
    refine ⟨h.solid, ⟨x, List.mem_cons_of_mem _ hx, hstart⟩, fun t ht => ?_⟩
    obtain ⟨y, hy, hend⟩ := h.last t ht
    exact ⟨y, List.mem_cons_of_mem _ hy, hend⟩
  | true =>
    refine ⟨fun t ht => ?_, ⟨a, List.mem_cons_self, ?_⟩, fun t ht => ?_⟩
    · rcases List.mem_cons.1 ht with rfl | ht
      · exact hw
      · exact h.solid t ht
    · show (spaced (w :: words)).head? = some a
      rw [spaced_cons, List.head?_append, hhead]
      rfl
    · rcases List.mem_cons.1 ht with rfl | ht
      · exact ⟨e, List.mem_cons_self, hlast⟩
      · obtain ⟨y, hy, hend⟩ := h.last t ht
        exact ⟨y, List.mem_cons_of_mem _ hy, hend⟩

/-- No word is cut at a separator that ends otherwise. -/
theorem not_cut (h : AreWords starts ends words) (he : e ∉ ends) :
    ∀ t ∈ words, ' ' ∉ t ∧ t.getLast? ≠ some e := by
  intro t ht
  obtain ⟨y, hy, hend⟩ := h.last t ht
  refine ⟨(h.solid t ht).1, fun hlast => he ?_⟩
  rwa [Option.some.inj (hlast.symm.trans hend)]

/-- A word is taken off, if it is there. -/
theorem dropWord_optional (h : AreWords starts ends words) (word : String) (b : Bool)
    (hword : word.toList = w ++ [' ']) (hspace : ' ' ∉ w) (hhead : w.head? = some a)
    (ha : a ∉ starts) (hlast : w.getLast? = some e) (he : e ∉ ends)
    (hstarts : ∀ x ∈ starts, isBlank x = false) {name : Name} {c : Char} {tail : Line}
    (hname : ' ' ∉ name) (hc : isBlank c = false) (hcword : c ∉ word.toList)
    (hstrip : strip (spaced ((if b then [w] else []) ++ words) ++ (name ++ c :: tail)) =
      spaced ((if b then [w] else []) ++ words) ++ (name ++ c :: tail)) :
    ∃ tail', dropWord word (spaced ((if b then [w] else []) ++ words) ++ (name ++ c :: tail)) =
      spaced words ++ (name ++ c :: tail') := by
  obtain ⟨x, hx, hstart⟩ := h.head
  cases b with
  | false =>
    refine ⟨tail, dropWord_of_not_startsWith hstrip ?_⟩
    refine startsWith_of_head?_ne (a := a) ?_ ?_
    · rw [hword, List.head?_append, hhead]
      rfl
    · show (spaced words ++ (name ++ c :: tail)).head? ≠ some a
      rw [List.head?_append, hstart]
      rintro hxa
      exact ha (Option.some.inj hxa ▸ hx)
  | true =>
    have htext : spaced ((if true then [w] else []) ++ words) ++ (name ++ c :: tail) =
        word.toList ++ (spaced words ++ (name ++ c :: tail)) := by
      simp [spaced_cons, hword]
    rw [htext] at hstrip ⊢
    refine dropWord_spaced hword hspace hlast (h.not_cut he) hstart (hstarts x hx) hname hc ?_
      hstrip
    intro u v _ hv _
    exact hcword (by simp [hv])

end AreWords

namespace Declaration

variable {d : Declaration}

theorem solid_quoted {abi : List Char} (h : Solid abi) : Solid ('"' :: abi ++ ['"']) := by
  obtain ⟨hspace, hround, hangle⟩ := h
  exact ⟨by simpa using hspace, by simpa using hround, by simpa using hangle⟩

theorem IsHeader.lastWords (h : d.IsHeader) : AreWords ['e', 'f'] ['n', '"'] d.lastWords := by
  unfold Declaration.lastWords externWords
  cases habi : d.abi with
  | none =>
    refine ⟨by decide, ⟨'f', by decide, rfl⟩, fun w hw => ⟨'n', by decide, ?_⟩⟩
    rw [List.mem_singleton.1 hw]
    rfl
  | some abi =>
    refine ⟨fun w hw => ?_, ⟨'e', by decide, rfl⟩, fun w hw => ?_⟩ <;>
      simp only [List.cons_append, List.nil_append, List.mem_cons, List.not_mem_nil,
        or_false] at hw <;>
      rcases hw with rfl | rfl | rfl
    · decide
    · exact solid_quoted (h.abi abi habi)
    · decide
    · exact ⟨'n', by decide, rfl⟩
    · refine ⟨'"', by decide, ?_⟩
      rw [← List.cons_append]
      exact List.getLast?_concat
    · exact ⟨'n', by decide, rfl⟩

theorem IsHeader.laterWords (h : d.IsHeader) :
    AreWords ['u', 'e', 'f'] ['e', 'n', '"'] d.laterWords :=
  h.lastWords.optional d.isUnsafe (by decide) rfl rfl

theorem IsHeader.words (h : d.IsHeader) :
    AreWords ['c', 'u', 'e', 'f'] ['t', 'e', 'n', '"'] d.words :=
  h.laterWords.optional d.isConst (by decide) rfl rfl

theorem bracket_cases (d : Declaration) : d.bracket = '(' ∨ d.bracket = '<' := by
  unfold bracket
  cases d.isGeneric with
  | false => exact .inl rfl
  | true => exact .inr rfl

theorem isBlank_bracket (d : Declaration) : isBlank d.bracket = false := by
  rcases d.bracket_cases with h | h <;> rw [h] <;> decide

/-- The words before the name begin neither with a blank nor like a visibility. -/
theorem initial_plain {x : Char} (h : x ∈ ['c', 'u', 'e', 'f']) : isBlank x = false ∧ x ≠ 'p' := by
  simp only [List.mem_cons, List.not_mem_nil, or_false] at h
  rcases h with rfl | rfl | rfl | rfl <;> decide

/-! ## The header without its qualifiers -/

/-- A visibility with brackets is not repeated by the name and what is behind it. -/
theorem IsHeader.not_repeated (h : d.IsHeader) {word : String} (rest : String)
    (hword : word.toList = "pub".toList ++ '(' :: rest.toList) (hangle : '<' ∉ word.toList)
    (htail : ¬ rest.toList <+: d.tail) {u v : List Char} (hu : u <:+ d.name)
    (hv : word.toList = u ++ d.bracket :: v) : ¬ v <+: d.tail := by
  have hno : '(' ∉ u := fun hm => h.name.2.1 (hu.subset hm)
  rcases d.bracket_cases with hb | hb
  · rw [hb, hword] at hv
    have hsame := congrArg (List.takeWhile (· != '(')) hv
    rw [takeWhile_append_cons (by decide), takeWhile_append_cons hno] at hsame
    obtain rfl := hsame
    obtain rfl : rest.toList = v := by simpa using hv
    exact htail
  · rw [hb] at hv
    exact absurd (by simp [hv]) hangle

/-- What is left of the header without its visibility. -/
theorem IsHeader.dropVisibility_text (h : d.IsHeader) :
    ∃ tail, dropVisibility d.text = spaced d.words ++ (d.name ++ d.bracket :: tail) := by
  obtain ⟨a, ha, hstart⟩ := h.words.head
  have hcut {word : String} {w : List Char} {e : Char} (hvis : d.visibility.text = word)
      (hword : word.toList = w ++ [' ']) (hspace : ' ' ∉ w) (hlast : w.getLast? = some e)
      (he : e ∉ ['t', 'e', 'n', '"'])
      (htail : ∀ u v, u <:+ d.name → word.toList = u ++ d.bracket :: v → ¬ v <+: d.tail) :
      ∃ tail, dropWord word d.text = spaced d.words ++ (d.name ++ d.bracket :: tail) := by
    have hstrip := h.stripped
    rw [text, hvis] at hstrip ⊢
    exact dropWord_spaced hword hspace hlast (h.words.not_cut he) hstart (initial_plain ha).1
      h.name.1 d.isBlank_bracket htail hstrip
  cases hvis : d.visibility with
  | inherited =>
    have htext : d.text = spaced d.words ++ (d.name ++ d.bracket :: d.tail) := by
      rw [text, hvis]
      rfl
    refine ⟨d.tail, (dropVisibility_of_head?_ne h.stripped ?_).trans htext⟩
    rw [htext, List.head?_append, hstart]
    exact fun hp => (initial_plain ha).2 (Option.some.inj hp)
  | everywhere =>
    have hcrate : startsWith "pub(crate) " (strip d.text) = false := by
      rw [h.stripped, text, hvis]
      rfl
    have hparent : startsWith "pub(super) " (strip d.text) = false := by
      rw [h.stripped, text, hvis]
      rfl
    rw [dropVisibility, hcrate, hparent, if_neg Bool.false_ne_true, if_neg Bool.false_ne_true]
    refine hcut (w := "pub".toList) (e := 'b') (by rw [hvis]; rfl) (by decide) (by decide)
      (by decide) (by decide) ?_
    intro u v _ hv _
    have hmem : d.bracket ∈ "pub ".toList := by simp [hv]
    rcases d.bracket_cases with hb | hb <;> rw [hb] at hmem <;> revert hmem <;> decide
  | crate =>
    have hcrate : startsWith "pub(crate) " (strip d.text) = true := by
      rw [h.stripped, text, hvis]
      rfl
    rw [dropVisibility, hcrate, if_pos rfl]
    refine hcut (w := "pub(crate)".toList) (e := ')') (by rw [hvis]; rfl) (by decide) (by decide)
      (by decide) (by decide) ?_
    exact fun u v => h.not_repeated "crate) " rfl (by decide) h.not_crate
  | parent =>
    have hcrate : startsWith "pub(crate) " (strip d.text) = false := by
      rw [h.stripped, text, hvis]
      rfl
    have hparent : startsWith "pub(super) " (strip d.text) = true := by
      rw [h.stripped, text, hvis]
      rfl
    rw [dropVisibility, hcrate, hparent, if_neg Bool.false_ne_true, if_pos rfl]
    refine hcut (w := "pub(super)".toList) (e := ')') (by rw [hvis]; rfl) (by decide) (by decide)
      (by decide) (by decide) ?_
    exact fun u v => h.not_repeated "super) " rfl (by decide) h.not_super

/-- What is left of the header without its qualifiers. -/
theorem IsHeader.trimQualifiers_text (h : d.IsHeader) :
    ∃ tail, trimQualifiers d.text = spaced d.lastWords ++ (d.name ++ d.bracket :: tail) := by
  have hbracket : d.bracket ∉ "const ".toList ∧ d.bracket ∉ "unsafe ".toList := by
    rcases d.bracket_cases with hb | hb <;> rw [hb] <;> decide
  obtain ⟨tail, htail⟩ := h.dropVisibility_text
  have hstrip := strip_dropVisibility h.stripped
  rw [htail] at hstrip
  obtain ⟨later, hlater⟩ := h.laterWords.dropWord_optional "const " d.isConst rfl
    (by decide) rfl (by decide) rfl (by decide)
    (fun x hx => (initial_plain (List.mem_cons_of_mem _ hx)).1) h.name.1 d.isBlank_bracket
    hbracket.1 hstrip
  have hwords : spaced ((if d.isConst then ["const".toList] else []) ++ d.laterWords) =
      spaced d.words := rfl
  rw [hwords] at hlater
  have hstrip' : strip (dropWord "const " (spaced d.words ++ (d.name ++ d.bracket :: tail))) =
      dropWord "const " (spaced d.words ++ (d.name ++ d.bracket :: tail)) := strip_dropWord hstrip
  rw [hlater] at hstrip'
  obtain ⟨last, hlast⟩ := h.lastWords.dropWord_optional "unsafe " d.isUnsafe rfl
    (by decide) rfl (by decide) rfl (by decide)
    (fun x hx => (initial_plain (List.mem_cons_of_mem _ (List.mem_cons_of_mem _ hx))).1) h.name.1
    d.isBlank_bracket hbracket.2 hstrip'
  refine ⟨last, ?_⟩
  rw [trimQualifiers, htail, hlater]
  exact hlast

/-! ## The name -/

/-- A line without blanks around it does not end with a line break. -/
theorem not_endsWith_newline {l : Line} (h : strip l = l) : endsWith ";\n" l = false := by
  rw [Bool.eq_false_iff]
  intro hend
  obtain ⟨front, rfl⟩ := List.isSuffixOf_iff_suffix.1 hend
  have hsplit : front ++ ";\n".toList = (front ++ [';']) ++ ['\n'] := by simp
  rw [hsplit, strip_concat_of_isBlank isBlank_newline] at h
  have hle := (strip_isInfix (front ++ [';'])).length_le
  rw [h, List.length_append, List.length_singleton] at hle
  omega

theorem declaresFunction_words (d : Declaration) (rest : Line) :
    declaresFunction (spaced d.lastWords ++ rest) = true := by
  unfold lastWords externWords
  rw [declaresFunction, Bool.or_eq_true, Bool.and_eq_true]
  cases d.abi with
  | none => exact .inl (List.isPrefixOf_iff_prefix.2 ⟨rest, rfl⟩)
  | some abi =>
    refine .inr ⟨List.isPrefixOf_iff_prefix.2 ⟨abi ++ "\" fn ".toList ++ rest, ?_⟩,
      contains_iff.2 ?_⟩
    · simp [spaced]
    · exact ⟨"extern \"".toList ++ abi, rest, by simp [spaced]⟩

/-- Of the words there is left what stands behind the last space. -/
theorem lastField_spaced {words : List (List Char)} (hne : words ≠ []) {name : Name}
    (hname : ' ' ∉ name) : lastField ' ' (spaced words ++ name) = name := by
  obtain ⟨init, w, rfl⟩ : ∃ init w, words = init ++ [w] :=
    ⟨_, _, (List.dropLast_concat_getLast hne).symm⟩
  have hlast : spaced (init ++ [w]) ++ name = (spaced init ++ w) ++ ' ' :: name := by
    simp [spaced]
  rw [hlast, lastField_append_cons hname]

/-- The text before a bracket is what is left when both brackets are cut off. -/
theorem firstField_brackets {front : Line} (hround : '(' ∉ front) (hangle : '<' ∉ front) {c : Char}
    (hc : c = '(' ∨ c = '<') (tail : Line) :
    firstField "<" (firstField "(" (front ++ c :: tail)) = front := by
  rw [firstField_eq_takeWhile (show "<".toList = ['<'] from rfl),
    firstField_eq_takeWhile (show "(".toList = ['('] from rfl)]
  have hall {b : Char} (hb : b ∉ front) : ∀ x ∈ front, (x != b) = true := by
    intro x hx
    exact bne_iff_ne.2 fun h => hb (h ▸ hx)
  rcases hc with rfl | rfl
  · have hend : (front ++ []).takeWhile (· != '<') = front ++ [] :=
      List.takeWhile_append_of_pos (hall hangle)
    rwa [takeWhile_append_cons hround, ← List.append_nil front]
  · rw [List.takeWhile_append_of_pos (hall hround), List.takeWhile_cons_of_pos (by decide),
      takeWhile_append_cons hangle]

theorem IsHeader.bracket_notMem (h : d.IsHeader) {b : Char} (hb : b = '(' ∨ b = '<') :
    b ∉ spaced d.lastWords ++ d.name := by
  intro hmem
  rcases List.mem_append.1 hmem with hmem | hmem
  · obtain ⟨w, hw, hc⟩ := List.mem_flatMap.1 hmem
    rcases List.mem_append.1 hc with hc | hc
    · exact (h.lastWords.solid w hw).bracket_notMem hb hc
    · rw [List.mem_singleton.1 hc] at hb
      revert hb
      decide
  · exact h.name.bracket_notMem hb hmem

theorem IsHeader.declaredName_text (h : d.IsHeader) : declaredName d.text = d.name := by
  obtain ⟨tail, htail⟩ := h.trimQualifiers_text
  have hne : d.lastWords ≠ [] := by simp [Declaration.lastWords]
  unfold declaredName
  rw [not_endsWith_newline h.stripped, h.hasBody, Bool.or_self, if_neg Bool.false_ne_true]
  show (if declaresFunction (trimQualifiers d.text) then _ else _) = _
  rw [htail, if_pos (declaresFunction_words d _), ← List.append_assoc,
    firstField_brackets (h.bracket_notMem (.inl rfl)) (h.bracket_notMem (.inr rfl)) d.bracket_cases,
    lastField_spaced hne h.name.1]

/-- A name by itself is its own name. -/
theorem declaredName_of_space_notMem {name : Name} (h : ' ' ∉ name) : declaredName name = name := by
  have hno {p : String} (hp : ' ' ∈ p.toList) {s : Line} (hs : ' ' ∉ s) :
      startsWith p s = false := by
    rw [Bool.eq_false_iff]
    exact fun hstart => hs ((List.isPrefixOf_iff_prefix.1 hstart).subset hp)
  have hstrip : ' ' ∉ strip name := fun hm => h (mem_of_mem_strip hm)
  have hkeep {p : String} (hp : ' ' ∈ p.toList) : dropWord p name = name := by
    rw [dropWord, hno hp hstrip, if_neg Bool.false_ne_true]
  have htrim : trimQualifiers name = name := by
    rw [trimQualifiers, dropVisibility, hno (by decide) hstrip, hno (by decide) hstrip,
      if_neg Bool.false_ne_true, if_neg Bool.false_ne_true, hkeep (by decide), hkeep (by decide),
      hkeep (by decide)]
  have hfn : declaresFunction name = false := by
    rw [declaresFunction, hno (by decide) h, hno (by decide) h]
    rfl
  unfold declaredName
  by_cases hend : (endsWith ";\n" name || endsWith ";" name) = true
  · rw [if_pos hend]
  · rw [if_neg hend]
    show (if declaresFunction (trimQualifiers name) then _ else _) = _
    rw [htrim, hfn, if_neg Bool.false_ne_true]

end Declaration

end Covenant.Header

namespace Covenant.Merge

open Text Header Contracts

/-- The name in the header of a function is read, and so is a name that stands by itself. So a block
that ends with the header and one that ends with the name alone are for the same source lines, and
the header is one of them if it stands in a scope of the block's owner. -/
theorem declaredName_header {d : Declaration} (h : d.IsHeader) :
    declaredName d.text = d.name ∧ declaredName d.name = d.name ∧
      ∀ (s : State) (b : Block) (byName byHeader : Line), strip byName = d.name →
        strip byHeader = d.text →
        (∀ line, s.agrees b byHeader line = s.agrees b byName line) ∧
          ∀ line, strip line = d.text → s.agrees b byName line = (s.scope.owner == b.owner) := by
  have htext := h.declaredName_text
  have hname := Declaration.declaredName_of_space_notMem h.name.1
  refine ⟨htext, hname, fun s b byName byHeader hn hh => ⟨fun line => ?_, fun line hl => ?_⟩⟩
  · rw [State.agrees, State.agrees, hn, hh, htext, hname]
  · rw [State.agrees, hn, hl, htext, hname, beq_self_eq_true, Bool.and_true]

/-- Visibility and qualifiers occur once more behind the name. -/
def repeatedWords : Declaration where
  visibility := .crate
  isConst := true
  isUnsafe := true
  abi := some "C".toList
  name := "pub".toList
  isGeneric := true
  tail := "const N: u8>(pub(crate) unsafe f".toList

theorem declaredName_header_repeated :
    repeatedWords.text =
        "pub(crate) const unsafe extern \"C\" fn pub<const N: u8>(pub(crate) unsafe f".toList ∧
      declaredName repeatedWords.text = "pub".toList ∧
      ∀ (s : State) (b : Block), s.agrees b "pub\n".toList repeatedWords.text =
        (s.scope.owner == b.owner) := by
  have h : repeatedWords.IsHeader := ⟨by decide, by decide, by decide +kernel, by decide +kernel,
    by decide +kernel, by decide +kernel⟩
  have hheader := declaredName_header h
  exact ⟨by decide +kernel, hheader.1, fun s b =>
    (hheader.2.2 s b "pub\n".toList repeatedWords.text (by decide) h.stripped).2 _ h.stripped⟩

end Covenant.Merge
