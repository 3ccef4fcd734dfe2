import Covenant.Contracts.Block
import Covenant.Proofs.Text.Line

/-!
# Contracts files

A `Contract` is a block as it stands in a file, and a `Layout` is a file of blocks with one blank
line between each two. Below a block there is either nothing or a blank line and the next block
(`After`); so the paragraphs of such a file are its blocks (`Layout.paragraph`).
-/

namespace Covenant.Contracts

open Text Header

/-! ## Attributes -/

theorem indented_cons (indent a : Line) (as : List Line) :
    indented indent (a :: as) = indent ++ (strip a ++ ['\n']) ++ indented indent as := by
  simp [indented]

theorem isAttribute_cons {c : Char} (hc : isBlank c = true) (l : Line) :
    isAttribute (c :: l) = isAttribute l := by
  rw [isAttribute, isAttribute, strip_cons_of_isBlank hc]

theorem isAttribute_append_of_isBlank {indent : Line} (hindent : ∀ c ∈ indent, isBlank c = true)
    (l : Line) : isAttribute (indent ++ l) = isAttribute l := by
  induction indent with
  | nil => rfl
  | cons c indent ih =>
    rw [List.cons_append, isAttribute_cons (hindent c List.mem_cons_self)]
    exact ih fun c hc => hindent c (List.mem_cons_of_mem _ hc)

/-- What begins like an attribute is one. -/
theorem isAttribute_append {s : List Char} (h : startsWith "#" s = true ∨ startsWith "//" s = true)
    (r : List Char) : isAttribute (s ++ r) = true := by
  have hhash : isBlank '#' = false := by decide
  have hslash : isBlank '/' = false := by decide
  rw [isAttribute, Bool.or_eq_true]
  rcases h with h | h
  · obtain ⟨t, rfl⟩ := List.isPrefixOf_iff_prefix.1 h
    left
    show startsWith "#" (strip ('#' :: (t ++ r))) = true
    rw [strip_cons_of_not_isBlank hhash]
    simp [startsWith]
  · obtain ⟨t, rfl⟩ := List.isPrefixOf_iff_prefix.1 h
    right
    show startsWith "//" (strip ('/' :: '/' :: (t ++ r))) = true
    rw [strip_cons_of_not_isBlank hslash, stripRight_cons_of_not_isBlank hslash]
    simp [startsWith]

/-- Indented attributes are one text that begins like an attribute. -/
theorem isAttribute_indented {indent a : Line} (hindent : ∀ c ∈ indent, isBlank c = true)
    (ha : isAttribute a = true) (as : List Line) :
    isAttribute (indented indent (a :: as)) = true := by
  rw [isAttribute, Bool.or_eq_true] at ha
  rw [indented_cons, List.append_assoc, List.append_assoc, isAttribute_append_of_isBlank hindent]
  exact isAttribute_append ha _

/-! ## Blocks -/

/-- A block of a contracts file. Any identifier will do for the name of its function. -/
structure Contract where
  header : Line
  attributes : List Line
  nameLine : Line
  owner : Name
  headerOwner?_eq : headerOwner? header = some owner := by decide +kernel
  owner_ne_nil : owner ≠ [] := by decide +kernel
  header_not_blank : isBlankLine header = false := by decide +kernel
  isAttribute_attributes : ∀ a ∈ attributes, isAttribute a = true := by decide +kernel
  nameLine_not_blank : isBlankLine nameLine = false := by decide +kernel
  nameLine_not_attribute : isAttribute nameLine = false := by decide +kernel
  name_ne_nil : declaredName (strip nameLine) ≠ [] := by decide +kernel
  name_not_attribute : isAttribute (declaredName (strip nameLine)) = false := by decide +kernel

namespace Contract

/-- The function that the block is for. -/
def name (c : Contract) : Name := declaredName (strip c.nameLine)

/-- The lines of the block. -/
def lines (c : Contract) : List Line := c.header :: (c.attributes ++ [c.nameLine])

theorem not_blank_of_isAttribute {a : Line} (h : isAttribute a = true) : isBlankLine a = false := by
  rw [Bool.eq_false_iff]
  intro hb
  rw [isAttribute, strip_of_isBlankLine hb] at h
  revert h
  decide

theorem not_blank (c : Contract) : ∀ l ∈ c.lines, isBlankLine l = false := by
  intro l hl
  simp only [lines, List.mem_cons, List.mem_append, List.not_mem_nil, or_false] at hl
  rcases hl with rfl | hl | rfl
  · exact c.header_not_blank
  · exact not_blank_of_isAttribute (c.isAttribute_attributes l hl)
  · exact c.nameLine_not_blank

/-- Reading the lines below a header gives the attributes and stops at the name. -/
theorem takeWhile_attributes (c : Contract) (rest : List Line) :
    (c.attributes ++ c.nameLine :: rest).takeWhile isAttribute = c.attributes := by
  rw [List.takeWhile_append_of_pos c.isAttribute_attributes,
    List.takeWhile_cons_of_neg (by simp [c.nameLine_not_attribute]), List.append_nil]

theorem dropWhile_attributes (c : Contract) (rest : List Line) :
    (c.attributes ++ c.nameLine :: rest).dropWhile isAttribute = c.nameLine :: rest := by
  rw [List.dropWhile_append_of_pos c.isAttribute_attributes,
    List.dropWhile_cons_of_neg (by simp [c.nameLine_not_attribute])]

end Contract

/-- The lines are those of the blocks, with one blank line between each two. -/
inductive Layout : List Contract → List Line → Prop
  | nil : Layout [] []
  | single (c : Contract) : Layout [c] c.lines
  | cons (c : Contract) {c' : Contract} {cs : List Contract} {blank : Line} {ls : List Line}
      (hb : isBlankLine blank = true) (h : Layout (c' :: cs) ls) :
      Layout (c :: c' :: cs) (c.lines ++ blank :: ls)

/-- The lines that can stand below a block when these blocks follow it. -/
inductive After : List Contract → List Line → Prop
  | last : After [] []
  | blank {c : Contract} {cs : List Contract} {blank : Line} {ls : List Line}
      (hb : isBlankLine blank = true) (h : Layout (c :: cs) ls) : After (c :: cs) (blank :: ls)

theorem Layout.eq_nil {ls : List Line} (h : Layout [] ls) : ls = [] := by
  cases h
  rfl

theorem Layout.of_nil {cs : List Contract} (h : Layout cs []) : cs = [] := by
  generalize hls : ([] : List Line) = ls at h
  cases h with
  | nil => rfl
  | single => cases hls
  | cons => cases hls

theorem Layout.eq_append {c : Contract} {cs : List Contract} {ls : List Line}
    (h : Layout (c :: cs) ls) : ∃ rest, ls = c.lines ++ rest ∧ After cs rest := by
  cases h with
  | single => exact ⟨[], by simp, .last⟩
  | cons _ hb h => exact ⟨_, rfl, .blank hb h⟩

theorem After.layout {c : Contract} {cs : List Contract} {rest : List Line} (h : After cs rest) :
    Layout (c :: cs) (c.lines ++ rest) := by
  cases h with
  | last => simpa using Layout.single c
  | blank hb h => exact .cons c hb h

/-- Past the blank line are the blocks that follow. -/
theorem After.dropWhile {cs : List Contract} {rest : List Line} (h : After cs rest) :
    Layout cs (rest.dropWhile isBlankLine) := by
  cases h with
  | last => exact .nil
  | @blank c cs blank ls hb h =>
    rw [List.dropWhile_cons_of_pos hb]
    obtain ⟨rest, rfl, -⟩ := h.eq_append
    rw [Contract.lines, List.cons_append, List.dropWhile_cons_of_neg (by simp [c.header_not_blank])]
    exact h

theorem paragraphLength_append {a : List Line} (h : ∀ l ∈ a, isBlankLine l = false)
    (b : List Line) : paragraphLength (a ++ b) = a.length + paragraphLength b := by
  induction a with
  | nil => rw [List.nil_append, List.length_nil, Nat.zero_add]
  | cons l a ih =>
    rw [List.cons_append, paragraphLength, h l List.mem_cons_self, if_neg Bool.false_ne_true,
      ih fun x hx => h x (List.mem_cons_of_mem _ hx), List.length_cons]
    omega

/-- The first paragraph of a file is its first block. -/
theorem Layout.paragraph {c : Contract} {cs : List Contract} {ls : List Line}
    (h : Layout (c :: cs) ls) :
    Layout cs (ls.drop (paragraphLength ls)) ∧ (cs ≠ [] → paragraphLength ls < ls.length) ∧
      (cs = [] → paragraphLength ls = ls.length) := by
  obtain ⟨rest, rfl, ha⟩ := h.eq_append
  rw [paragraphLength_append c.not_blank]
  cases ha with
  | last => simp [paragraphLength, Layout.nil]
  | @blank c' cs blank ls hb hl =>
    have hdrop : (c.lines ++ blank :: ls).drop (c.lines.length + 1) = ls := by
      rw [← List.drop_drop, List.drop_left, List.drop_one, List.tail_cons]
    have hne : ls ≠ [] := by
      obtain ⟨rest, rfl, -⟩ := hl.eq_append
      simp [Contract.lines]
    have hpos := List.length_pos_iff.2 hne
    rw [paragraphLength, if_pos hb, hdrop]
    refine ⟨hl, fun _ => ?_, fun h => absurd h (List.cons_ne_nil _ _)⟩
    simp only [List.length_append, List.length_cons]
    omega

/-- Files of the same blocks have the same number of lines. -/
theorem Layout.length_eq {cs : List Contract} {ls ls' : List Line} (h : Layout cs ls)
    (h' : Layout cs ls') : ls.length = ls'.length := by
  induction cs generalizing ls ls' with
  | nil =>
    cases h
    cases h'
    rfl
  | cons c cs ih =>
    obtain ⟨rest, rfl, ha⟩ := h.eq_append
    obtain ⟨rest', rfl, ha'⟩ := h'.eq_append
    cases ha with
    | last =>
      cases ha'
      rfl
    | blank hb hl =>
      cases ha' with
      | blank hb' hl' =>
        have := ih hl hl'
        simp only [List.length_append, List.length_cons]
        omega

end Covenant.Contracts
