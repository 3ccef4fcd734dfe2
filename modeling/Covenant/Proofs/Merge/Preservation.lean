import Covenant.Proofs.Contracts.Layout
import Covenant.Proofs.Merge.Preamble
import Covenant.Proofs.Text.Line

/-!
# Annotating keeps the source

An annotated file is its source with pieces before the lines: attributes of the contracts, the
feature and imports, and at the end the type invariants. No line of the source is lost, cut or moved
(`annotate_keeps_source`).

The import of the invariants is put in after the file has been read again as lines, so each
piece must still be found there as whole lines (`Settled`).
-/

namespace Covenant.Merge

open Text Contracts Dressing

/-! ## Texts without imports -/

/-- No line of the text is an import. -/
def NoImportLine (t : List Char) : Prop := ∀ l ∈ lines t, isImport l = false

theorem isImport_nil : isImport [] = false := by decide

theorem isImport_iff {t : List Char} : isImport t = true ↔ "use".toList <+: t :=
  List.isPrefixOf_iff_prefix

theorem isImport_append {a : List Char} (h : isImport a = true) (b : List Char) :
    isImport (a ++ b) = true :=
  isImport_iff.2 ((isImport_iff.1 h).trans (List.prefix_append a b))

/-- What stands after a newline does not make a text begin with an import. -/
theorem isImport_append_newline (a b : List Char) : isImport (a ++ '\n' :: b) = isImport a := by
  have hp : '\n' ∉ "use".toList := by decide
  rw [Bool.eq_iff_iff]
  refine ⟨fun h => ?_, fun h => isImport_append h _⟩
  rw [isImport_iff] at h ⊢
  have ha : a ++ ['\n'] <+: a ++ '\n' :: b := ⟨b, by simp⟩
  rcases List.prefix_or_prefix_of_prefix h ha with h | h
  · rcases List.prefix_concat_iff.1 h with h | h
    · exact absurd (h ▸ by simp) hp
    · exact h
  · exact absurd (h.subset (by simp)) hp

/-- Whether a text begins with an import shows in its first line. -/
theorem isImport_of_lines_eq {t l : List Char} {ls : List Line} (h : lines t = l :: ls) :
    isImport t = isImport l := by
  have ht : t = l ++ ls.flatten := by rw [← flatten_lines t, h, List.flatten_cons]
  obtain ⟨⟨body, hb, rfl | ⟨rfl, hne⟩⟩, hend, -⟩ : Lined (l :: ls) := h ▸ lined_lines t
  · rw [ht, List.append_assoc, List.singleton_append, isImport_append_newline,
      isImport_append_newline]
  · by_cases hls : ls = []
    · rw [ht, hls, List.flatten_nil, List.append_nil]
    · have hlast := hend hls _ (List.getLast?_eq_some_getLast hne)
      exact absurd (hlast ▸ List.getLast_mem hne) hb

theorem noImportLine_append {a : List Char} (h : Ended a) (b : List Char) :
    NoImportLine (a ++ b) ↔ NoImportLine a ∧ NoImportLine b := by
  unfold NoImportLine
  rw [lines_append h, List.forall_mem_append]

theorem noImportLine_of_isLine {l : Line} (hl : IsLine l) (h : isImport l = false) :
    NoImportLine l := by
  intro l' hl'
  rw [lines_of_isLine hl, List.mem_singleton] at hl'
  exact hl' ▸ h

/-! ## Settled texts -/

/-- Texts that joining leaves apart: each but the last is whole lines, and an import is at the start
of its text if there is one. -/
def Settled : List Line → Prop
  | [] => True
  | t :: ts => (isImport t = false → NoImportLine t) ∧ (ts ≠ [] → Ended t) ∧ Settled ts

theorem settled_of_lined {ls : List Line} (h : Lined ls) : Settled ls := by
  induction ls with
  | nil => trivial
  | cons l ls ih => exact ⟨noImportLine_of_isLine h.1, h.2.1, ih h.2.2⟩

theorem settled_append {a b : List Line}
    (ha : ∀ t ∈ a, Ended t ∧ (isImport t = false → NoImportLine t)) (hb : Settled b) :
    Settled (a ++ b) := by
  induction a with
  | nil => exact hb
  | cons t a ih =>
    obtain ⟨hend, hclean⟩ := ha t List.mem_cons_self
    exact ⟨hclean, fun _ => hend, ih fun u hu => ha u (List.mem_cons_of_mem _ hu)⟩

/-- Texts that are no imports make a text without imports, and with more after them it is whole
lines. -/
theorem Settled.noImportLine {a b : List Line} (h : Settled (a ++ b))
    (ha : ∀ t ∈ a, isImport t = false) :
    NoImportLine a.flatten ∧ (b ≠ [] → Ended a.flatten) := by
  induction a with
  | nil => exact ⟨nofun, fun _ => ended_nil⟩
  | cons t a ih =>
    obtain ⟨hclean, hend, h⟩ := h
    obtain ⟨hno, hended⟩ := ih h fun u hu => ha u (List.mem_cons_of_mem _ hu)
    have ht := hclean (ha t List.mem_cons_self)
    rw [List.flatten_cons]
    refine ⟨?_, fun hb => (hend (by simp [hb])).append (hended hb)⟩
    by_cases hn : a = []
    · rwa [hn, List.flatten_nil, List.append_nil]
    · exact (noImportLine_append (hend (by simp [hn])) _).2 ⟨ht, hno⟩

theorem Settled.noImportLine_flatten {ls : List Line} (h : Settled ls)
    (hno : ¬ ∃ t ∈ ls, isImport t = true) : NoImportLine ls.flatten := by
  have hfree : ∀ t ∈ ls, isImport t = false := by
    intro t ht
    rw [Bool.eq_false_iff]
    exact fun hi => hno ⟨t, ht, hi⟩
  exact (Settled.noImportLine (b := []) (by rwa [List.append_nil]) hfree).1

theorem noImportLine_concat {t : List Char} (h : NoImportLine t) : NoImportLine (t ++ ['\n']) := by
  by_cases hn : t = []
  · subst hn
    exact noImportLine_of_isLine ⟨[], by simp, .inl rfl⟩ (by decide)
  -- the last line is the only one that changes
  obtain ⟨ls, l, hls⟩ : ∃ ls l, lines t = ls ++ [l] :=
    ⟨_, _, (List.dropLast_concat_getLast (mt lines_eq_nil_iff.1 hn)).symm⟩
  have hlined : Lined (ls ++ [l]) := hls ▸ lined_lines t
  have hfree : ∀ l' ∈ ls ++ [l], isImport l' = false := by rwa [← hls]
  have ht : t = ls.flatten ++ l := by rw [← flatten_lines t, hls]; simp
  obtain ⟨hno, hend⟩ := (settled_of_lined hlined).noImportLine
    fun u hu => hfree u (List.mem_append_left _ hu)
  rw [ht, List.append_assoc, noImportLine_append (hend (by simp))]
  refine ⟨hno, ?_⟩
  have hl : isImport l = false := hfree l (by simp)
  obtain ⟨body, hb, rfl | ⟨rfl, -⟩⟩ := hlined.isLine l (by simp)
  · rw [noImportLine_append (ended_concat body)]
    exact ⟨noImportLine_of_isLine ⟨body, hb, .inl rfl⟩ hl,
      noImportLine_of_isLine ⟨[], by simp, .inl rfl⟩ (by decide)⟩
  · refine noImportLine_of_isLine ⟨l, hb, .inl rfl⟩ ?_
    rw [isImport_append_newline, hl]

/-! ## The import of the invariants -/

theorem importInvariants_of_noImportLine {t : List Char} (core : Bool) (h : NoImportLine t) :
    (importInvariants core (lines t)).flatten = invariantImport core ++ t := by
  have hn : (lines t).findIdx? isImport = none := List.findIdx?_eq_none_iff.2 h
  rw [importInvariants, hn]
  show (insertAt 0 _ _).flatten = _
  rw [insertAt, List.take_zero, List.drop_zero, List.nil_append, List.flatten_cons, flatten_lines]

/-- The import of the invariants goes before the first import. -/
theorem importInvariants_append {a b : List Char} (core : Bool) (ha : Ended a)
    (hno : NoImportLine a) (hb : isImport b = true) :
    (importInvariants core (lines (a ++ b))).flatten = a ++ invariantImport core ++ b := by
  have hne : b ≠ [] := fun h => by rw [h, isImport_nil] at hb; cases hb
  obtain ⟨l, ls, hl⟩ := List.exists_cons_of_ne_nil (mt lines_eq_nil_iff.1 hne)
  have hi : (lines a ++ l :: ls).findIdx? isImport = some (lines a).length := by
    rw [List.findIdx?_append, List.findIdx?_eq_none_iff.2 hno, List.findIdx?_cons,
      if_pos (isImport_of_lines_eq hl ▸ hb)]
    simp
  rw [importInvariants, lines_append ha, hl, hi, Option.getD_some, insertAt,
    List.take_left, List.drop_left, List.flatten_append, List.flatten_cons, flatten_lines,
    ← hl, flatten_lines, List.append_assoc]

/-! ## Pieces -/

/-- What may be inserted: attribute lines of the contracts, indented anew, and the fixed texts. -/
inductive Piece (core : Bool) (contracts : List Line) : Extra → Prop
  | chunk {indent : Line} {attributes : List Line} (hindent : ∀ c ∈ indent, isBlank c = true)
      (hpart : attributes <:+: contracts) (hattributes : ∀ a ∈ attributes, isAttribute a = true)
      (hlines : ∀ l ∈ lines (indented indent attributes), isBlankLine l = true ∨
        isAttribute l = true) :
      Piece core contracts (.attributes (indented indent attributes))
  | feature : Piece core contracts (.preamble featureLine)
  | imports : Piece core contracts (.preamble (importsOf core))
  | invariants : Piece core contracts (.preamble (invariantImport core))

theorem ended_indented (indent : Line) (attributes : List Line) :
    Ended (indented indent attributes) := by
  induction attributes with
  | nil => exact ended_nil
  | cons a as ih =>
    rw [indented_cons, ← List.append_assoc]
    exact (ended_concat _).append ih

theorem isAttribute_strip_concat {a : Line} (h : isAttribute a = true) :
    isAttribute (strip a ++ ['\n']) = true := by
  rwa [isAttribute, strip_concat_of_isBlank isBlank_newline, strip_strip]

/-- The lines of one attribute below an indentation. The indentation of a blank line has newlines of
its own. -/
theorem lines_indented_one {indent a : Line} (hindent : ∀ c ∈ indent, isBlank c = true)
    (ha : IsLine a) (hattr : isAttribute a = true) :
    ∀ l ∈ lines (indent ++ (strip a ++ ['\n'])), isBlankLine l = true ∨ isAttribute l = true := by
  induction indent with
  | nil =>
    intro l hl
    rw [List.nil_append, lines_concat (not_mem_strip_of_isLine ha), List.mem_singleton] at hl
    exact .inr (hl ▸ isAttribute_strip_concat hattr)
  | cons c indent ih =>
    have hc := hindent c List.mem_cons_self
    have ih := ih fun x hx => hindent x (List.mem_cons_of_mem _ hx)
    rw [List.cons_append, lines]
    split
    · next hn =>
      intro l hl
      rcases List.mem_cons.1 hl with rfl | hl
      · exact .inl (by simp [isBlankLine, hc])
      · exact ih l hl
    · split
      · next he => simp [lines_eq_nil_iff] at he
      · next l ls he =>
        rw [he] at ih
        intro l' hl'
        rcases List.mem_cons.1 hl' with rfl | hl'
        · rw [isAttribute_cons hc]
          refine (ih l List.mem_cons_self).imp_left fun hb => ?_
          simpa [isBlankLine, hc] using hb
        · exact ih l' (List.mem_cons_of_mem _ hl')

theorem lines_indented {indent : Line} {attributes : List Line}
    (hindent : ∀ c ∈ indent, isBlank c = true)
    (hattrs : ∀ a ∈ attributes, IsLine a ∧ isAttribute a = true) :
    ∀ l ∈ lines (indented indent attributes), isBlankLine l = true ∨ isAttribute l = true := by
  induction attributes with
  | nil => exact nofun
  | cons a as ih =>
    obtain ⟨ha, hattr⟩ := hattrs a List.mem_cons_self
    have hend : Ended (indent ++ (strip a ++ ['\n'])) := by
      rw [← List.append_assoc]
      exact ended_concat _
    rw [indented_cons, lines_append hend, List.forall_mem_append]
    exact ⟨lines_indented_one hindent ha hattr, ih fun b hb => hattrs b (List.mem_cons_of_mem _ hb)⟩

/-- An import is neither blank nor an attribute. -/
theorem isImport_of_blank_or_attribute {l : Line}
    (h : isBlankLine l = true ∨ isAttribute l = true) : isImport l = false := by
  rw [Bool.eq_false_iff]
  intro hi
  obtain ⟨r, rfl⟩ := isImport_iff.1 hi
  have hu : isBlank 'u' = false := by decide
  have hs : ∀ s : Line, "use".toList ++ s = 'u' :: ('s' :: 'e' :: s) := fun s => rfl
  rw [hs] at h
  rcases h with h | h
  · simp [isBlankLine, hu] at h
  · rw [isAttribute, strip_cons_of_not_isBlank hu] at h
    simp [startsWith] at h

theorem invariantImport_spec (core : Bool) :
    isImport (invariantImport core) = true ∧ (invariantImport core).getLast? = some '\n' ∧
      '\r' ∉ invariantImport core := by
  cases core <;> decide +kernel

theorem noImportLine_featureLine : NoImportLine featureLine := by
  unfold NoImportLine
  decide +kernel

theorem ended_of_getLast? {t : List Char} (h : t.getLast? = some '\n') : Ended t := by
  intro c hc
  exact Option.some.inj (hc.symm.trans h)

/-- A piece is whole lines, and an import is at its start if there is one. -/
theorem Piece.settled {core : Bool} {contracts : List Line} {x : Extra}
    (h : Piece core contracts x) :
    Ended x.text ∧ (isImport x.text = false → NoImportLine x.text) := by
  cases h with
  | chunk hindent hpart hattributes hlines =>
    exact ⟨ended_indented _ _, fun _ l hl => isImport_of_blank_or_attribute (hlines l hl)⟩
  | feature =>
    exact ⟨ended_of_getLast? featureLine_spec.2.1, fun _ => noImportLine_featureLine⟩
  | imports =>
    obtain ⟨hi, hlast, -⟩ := importsOf_spec core
    exact ⟨ended_of_getLast? hlast, fun hn => nomatch hi.symm.trans hn⟩
  | invariants =>
    obtain ⟨hi, hlast, -⟩ := invariantImport_spec core
    exact ⟨ended_of_getLast? hlast, fun hn => nomatch hi.symm.trans hn⟩

theorem settled_elements {core : Bool} {contracts : List Line} {d : Dressing}
    (hd : All (Piece core contracts) d) (hs : Lined (source d)) : Settled (elements d) := by
  induction d with
  | nil => trivial
  | cons e d ih =>
    obtain ⟨hl, hend, hs⟩ : Lined (e.line :: source d) := hs
    have hgap : ∀ t ∈ e.gap.map Extra.text, Ended t ∧ (isImport t = false → NoImportLine t) := by
      intro t ht
      obtain ⟨x, hx, rfl⟩ := List.mem_map.1 ht
      exact (hd e List.mem_cons_self x hx).settled
    have hne : elements d ≠ [] → source d ≠ [] := by
      cases d <;> simp [source]
    rw [elements_cons]
    refine settled_append hgap ⟨noImportLine_of_isLine hl, fun h => hend (hne h), ?_⟩
    exact ih (fun e' he' => hd e' (List.mem_cons_of_mem _ he')) hs

/-! ## What a merge inserts -/

theorem mem_insertAll {ls : List Line} {is : List Insertion} {l : Line} :
    l ∈ insertAll ls is ↔ l ∈ ls ∨ ∃ i ∈ is, l = i.text := by
  induction is generalizing ls with
  | nil => simp [insertAll]
  | cons i is ih =>
    show l ∈ insertAll (insertAt i.index i.text ls) is ↔ _
    simp only [ih, mem_insertAt, List.mem_cons, or_and_right, exists_or, exists_eq_left]
    rw [or_assoc, or_left_comm]

theorem not_mem_indented {indent : Line} {attributes : List Line} (hi : '\r' ∉ indent)
    (ha : ∀ a ∈ attributes, '\r' ∉ a) : '\r' ∉ indented indent attributes := by
  intro h
  obtain ⟨a, hmem, h⟩ := List.mem_flatMap.1 h
  simp only [List.mem_append, List.mem_singleton] at h
  rcases h with (h | h) | h
  · exact hi h
  · exact ha a hmem (mem_of_mem_strip h)
  · exact absurd h (by decide)

/-- A sweep finds attribute lines of the contracts, with the indentation of lines it met. -/
theorem sweep_pieces {ls contracts : List Line} {s : Sweep} {start : Nat} (core : Bool)
    (hlined : Lined contracts) (hcr : ∀ l ∈ contracts, '\r' ∉ l) (hls : ∀ l ∈ ls, '\r' ∉ l)
    (h : sweep ls (contracts.drop start) = .ok s) :
    ∀ i ∈ s.found, Piece core contracts (.attributes i.text) ∧ '\r' ∉ i.text := by
  have hnum : ∀ n ps, ∀ i ∈ numbered n ps, ∃ p ∈ ps, i.text = p.text := by
    intro n ps
    induction ps generalizing n with
    | nil => exact nofun
    | cons p ps ih =>
      intro i hi
      rcases List.mem_cons.1 hi with rfl | hi
      · exact ⟨p, List.mem_cons_self, rfl⟩
      · obtain ⟨q, hq, ht⟩ := ih (n + 1) i hi
        exact ⟨q, List.mem_cons_of_mem _ hq, ht⟩
  intro i hi
  rw [found_sweep h] at hi
  obtain ⟨p, hp, ht⟩ := hnum _ _ i hi
  have hfit := placed_fits h hp
  have hline : p.line ∈ ls := List.mem_of_getElem? hfit.line_eq
  have hpart : p.block.attributes <:+: contracts := by
    have := hfit.standsIn.attributes_prefix
    rw [List.drop_drop] at this
    exact this.isInfix.trans (List.drop_suffix _ _).isInfix
  have hindent : ∀ c ∈ indentation p.line, isBlank c = true :=
    fun c hc => isBlank_of_mem_indentation hc
  have hattr := hfit.standsIn.isAttribute_attributes
  rw [ht]
  refine ⟨.chunk hindent hpart hattr (lines_indented hindent fun a ha => ?_), ?_⟩
  · exact ⟨hlined.isLine a (hpart.subset ha), hattr a ha⟩
  · exact not_mem_indented (fun hc => hls _ hline ((List.takeWhile_prefix _).subset hc))
      fun a ha => hcr a (hpart.subset ha)

/-- A merge inserts attribute lines of the contracts. -/
theorem merge_pieces {source contracts : List Line} {m : Merged} (core : Bool)
    (hlined : Lined contracts) (hcr : ∀ l ∈ contracts, '\r' ∉ l)
    (hsource : ∀ l ∈ source, '\r' ∉ l) (h : merge source contracts = .ok m) :
    (∀ l ∈ m.lines, '\r' ∉ l) ∧
      All (fun x => Piece core contracts x ∧ '\r' ∉ x.text) (m.dressing source) := by
  have key : (∀ l ∈ m.lines, '\r' ∉ l) ∧
      ∀ i ∈ m.inserted, Piece core contracts (.attributes i.text) ∧ '\r' ∉ i.text := by
    refine merge_induction (P := fun m => (∀ l ∈ m.lines, '\r' ∉ l) ∧
      ∀ i ∈ m.inserted, Piece core contracts (.attributes i.text) ∧ '\r' ∉ i.text)
      (fun m start s hm hs => ?_) (fun u a => ⟨hsource, nofun⟩) h
    have hfound := sweep_pieces core hlined hcr hm.1 hs
    refine ⟨fun l hl => ?_, fun i hi => ?_⟩
    · rcases mem_insertAll.1 hl with hl | ⟨i, hi, rfl⟩
      · exact hm.1 l hl
      · exact (hfound i hi).2
    · rcases List.mem_append.1 hi with hi | hi
      · exact hm.2 i hi
      · exact hfound i hi
  exact ⟨key.1, all_insertEach (all_bare _ _) key.2⟩

theorem flatten_insertAt_insertAt {n : Nat} {ls : List Line} (h : n ≤ ls.length) (x y : Line) :
    (insertAt n x (insertAt n y ls)).flatten = (insertAt n (x ++ y) ls).flatten := by
  have hlen : (ls.take n).length = n := by rw [List.length_take]; omega
  have hins : insertAt n x (insertAt n y ls) = ls.take n ++ x :: y :: ls.drop n := by
    conv => lhs; arg 3; rw [insertAt]
    rw [insertAt_append_right (by omega), hlen, Nat.sub_self]
    rfl
  rw [hins, insertAt]
  simp

theorem flatten_insertBefore? {d : Dressing} {n : Option Nat}
    (hn : ∀ k, n = some k → k < (elements d).length) (x y : Line) :
    (elements ((d.insertBefore? n (.preamble y)).insertBefore? n (.preamble x))).flatten =
      (elements (d.insertBefore? n (.preamble (x ++ y)))).flatten := by
  cases n with
  | none => rfl
  | some k =>
    have hk := hn k rfl
    have hk' : k < (elements (insertBefore k (.preamble y) d)).length := by
      rw [elements_insertBefore _ hk, length_insertAt]
      omega
    show (elements (insertBefore k _ (insertBefore k _ d))).flatten =
      (elements (insertBefore k _ d)).flatten
    rw [elements_insertBefore _ hk', elements_insertBefore _ hk, elements_insertBefore _ hk]
    exact flatten_insertAt_insertAt (Nat.le_of_lt hk) x y

/-- The texts of a merge with imports, the feature and the imports apart where they are inserted
together. -/
theorem exists_dressing_withPreamble {source contracts : List Line} {m : Merged} {core : Bool}
    {Q : Extra → Prop} (h : merge source contracts = .ok m) (hm : All Q (m.dressing source))
    (hf : Q (.preamble featureLine)) (hi : Q (.preamble (importsOf core))) :
    ∃ d, Dressing.source d = source ∧ All Q d ∧
      (elements d).flatten = (m.withPreamble core).flatten := by
  have hins : ∀ (n : Option Nat) (t : Line) (d : Dressing), All Q d → Q (.preamble t) →
      Dressing.source d = source → All Q (d.insertBefore? n (.preamble t)) ∧
        Dressing.source (d.insertBefore? n (.preamble t)) = source := by
    intro n t d hd ht hs
    cases n with
    | none => exact ⟨hd, hs⟩
    | some n => exact ⟨all_insertBefore hd ht, (source_insertBefore ..).trans hs⟩
  have hsource := source_dressing source m
  have hwritten := elements_written h core
  unfold Merged.written at hwritten
  cases core with
  | true =>
    rw [importsOf_true] at hi
    rw [if_pos rfl] at hwritten
    obtain ⟨ha, hs⟩ := hins m.importLine _ _ hm hi hsource
    exact ⟨_, hs, ha, by rw [hwritten]⟩
  | false =>
    rw [importsOf_false] at hi
    rw [if_neg Bool.false_ne_true] at hwritten
    cases hattr : m.attributeLine with
    | some a =>
      rw [hattr] at hwritten
      obtain ⟨ha, hs⟩ := hins (some a) _ _ hm hf hsource
      obtain ⟨ha, hs⟩ := hins (m.importLine.map (· + 1)) _ _ ha hi hs
      exact ⟨_, hs, ha, by rw [← hwritten]; rfl⟩
    | none =>
      rw [hattr] at hwritten
      obtain ⟨ha, hs⟩ := hins m.importLine _ _ hm hi hsource
      obtain ⟨ha, hs⟩ := hins m.importLine _ _ ha hf hs
      refine ⟨_, hs, ha, ?_⟩
      rw [← hwritten]
      exact flatten_insertBefore? (notes_lt_elements h).1 _ _

/-! ## Annotated texts -/

/-- What stands after a dressed source: its type invariants with `lead` in front. Their import is at
the front of an empty source, or before the first import if that is in the section. -/
inductive Ending (lead : List Char) (core : Bool) (d : Dressing) (invariants : List Line) :
    List Char → Prop
  | nothing (h : invariants = []) : Ending lead core d invariants []
  | plain (h : invariants ≠ []) :
      Ending lead core d invariants (lead ++ invariants.flatten ++ ['\n'])
  | front (h : invariants ≠ []) (hd : d = []) :
      Ending lead core d invariants
        (invariantImport core ++ (lead ++ invariants.flatten ++ ['\n']))
  | within {before rest : List Line} {l : Line} (h : invariants = before ++ l :: rest)
      (hbefore : ∀ l ∈ before, isImport l = false) (hl : isImport l = true)
      (hd : NoImportLine (elements d).flatten) :
      Ending lead core d invariants
        (lead ++ before.flatten ++ invariantImport core ++ (l :: rest).flatten ++ ['\n'])

/-- The text is the source with pieces before its lines and the invariants at its end. -/
def Annotated (lead : List Char) (core : Bool) (source contracts : List Line) (out : List Char) :
    Prop :=
  ∃ d ending, Dressing.source d = source ∧ All (Piece core contracts) d ∧
    Ending lead core d (invariantSection contracts) ending ∧
    out = (elements d).flatten ++ ending

theorem invariantSection_suffix (ls : List Line) : invariantSection ls <:+ ls := by
  induction ls with
  | nil => exact List.suffix_rfl
  | cons l ls ih =>
    rw [invariantSection]
    split
    · exact (List.dropWhile_suffix _).trans (List.suffix_cons l ls)
    · exact ih.trans (List.suffix_cons l ls)

theorem exists_first_import {ts : List Line} (h : ∃ t ∈ ts, isImport t = true) :
    ∃ ts₁ t ts₂, ts = ts₁ ++ t :: ts₂ ∧ isImport t = true ∧ ∀ u ∈ ts₁, isImport u = false := by
  obtain ⟨t, ht⟩ := Option.isSome_iff_exists.1 (List.find?_isSome.2 h)
  obtain ⟨hi, ts₁, ts₂, hts, hno⟩ := List.find?_eq_some_iff_append.1 ht
  exact ⟨ts₁, t, ts₂, hts, hi, by simpa using hno⟩

section ImportInvariants

variable {core : Bool} {contracts : List Line} {d : Dressing} {lead : List Char}

/-- An import among the texts of a dressed source: the import of the invariants goes before it. -/
theorem importInvariants_dressing (hd : All (Piece core contracts) d)
    (hs : Lined (Dressing.source d)) (h : ∃ t ∈ elements d, isImport t = true)
    (rest : List Char) :
    ∃ d', Dressing.source d' = Dressing.source d ∧ All (Piece core contracts) d' ∧
      (importInvariants core (lines ((elements d).flatten ++ rest))).flatten =
        (elements d').flatten ++ rest := by
  obtain ⟨ts, t, us, he, ht, hts⟩ := exists_first_import h
  have hset := settled_elements hd hs
  rw [he] at hset
  obtain ⟨hno, hend⟩ := hset.noImportLine hts
  refine ⟨insertBefore ts.length (.preamble (invariantImport core)) d, source_insertBefore ..,
    all_insertBefore hd .invariants, ?_⟩
  have hlt : ts.length < (elements d).length := by simp [he]
  have hsplit : (elements d).flatten ++ rest = ts.flatten ++ (t ++ (us.flatten ++ rest)) := by
    simp [he]
  rw [hsplit, importInvariants_append core (hend (by simp)) hno (isImport_append ht _),
    elements_insertBefore _ hlt, he, insertAt, List.take_left, List.drop_left]
  simp

/-- Without any import, that of the invariants goes to the top. -/
theorem annotated_of_noImportLine (hd : All (Piece core contracts) d)
    (hsec : invariantSection contracts ≠ [])
    (hno : NoImportLine ((elements d).flatten ++
      (lead ++ (invariantSection contracts).flatten ++ ['\n']))) :
    Annotated lead core (Dressing.source d) contracts
      (importInvariants core (lines ((elements d).flatten ++
        (lead ++ (invariantSection contracts).flatten ++ ['\n'])))).flatten := by
  rw [importInvariants_of_noImportLine core hno]
  cases d with
  | nil => exact ⟨[], _, rfl, hd, .front hsec rfl, by simp⟩
  | cons e d =>
    have hlt : 0 < (elements (e :: d)).length := by
      rw [elements_cons]
      simp only [List.length_append, List.length_cons]
      omega
    refine ⟨insertBefore 0 (.preamble (invariantImport core)) (e :: d), _,
      source_insertBefore .., all_insertBefore hd .invariants, .plain hsec, ?_⟩
    rw [elements_insertBefore _ hlt, insertAt]
    simp

/-- Where the first import is in the section, that of the invariants goes before it. -/
theorem annotated_of_import_within (hd : All (Piece core contracts) d)
    (hset : Settled (invariantSection contracts))
    (hsi : ∃ l ∈ invariantSection contracts, isImport l = true)
    (hno : NoImportLine (elements d).flatten) (hend : Ended ((elements d).flatten ++ lead))
    (hfront : NoImportLine ((elements d).flatten ++ lead)) :
    Annotated lead core (Dressing.source d) contracts
      (importInvariants core (lines ((elements d).flatten ++
        (lead ++ (invariantSection contracts).flatten ++ ['\n'])))).flatten := by
  obtain ⟨before, l, rest, hsplit, hl, hbefore⟩ := exists_first_import hsi
  rw [hsplit] at hset
  obtain ⟨hnob, hendb⟩ := hset.noImportLine hbefore
  refine ⟨d, _, rfl, hd, .within hsplit hbefore hl hno, ?_⟩
  have htext : (elements d).flatten ++
      (lead ++ (invariantSection contracts).flatten ++ ['\n']) =
      ((elements d).flatten ++ lead) ++ before.flatten ++ (l ++ (rest.flatten ++ ['\n'])) := by
    simp [hsplit]
  rw [htext, importInvariants_append core (hend.append (hendb (by simp)))
    ((noImportLine_append hend _).2 ⟨hfront, hnob⟩) (isImport_append hl _)]
  simp

/-- The import of the invariants leaves a source annotated to which they were appended. -/
theorem annotated_importInvariants (hd : All (Piece core contracts) d)
    (hs : Lined (Dressing.source d)) (hc : Lined contracts)
    (hsec : invariantSection contracts ≠ [])
    (hlead : lead = ['\n'] ∨ lead = [] ∧ Ended (elements d).flatten) :
    Annotated lead core (Dressing.source d) contracts
      (importInvariants core (lines ((elements d).flatten ++
        (lead ++ (invariantSection contracts).flatten ++ ['\n'])))).flatten := by
  by_cases himp : ∃ t ∈ elements d, isImport t = true
  · obtain ⟨d', hsd, hd', hout⟩ := importInvariants_dressing hd hs himp _
    exact ⟨d', _, hsd, hd', .plain hsec, hout⟩
  have hno : NoImportLine (elements d).flatten := (settled_elements hd hs).noImportLine_flatten himp
  -- up to the section there is no import
  obtain ⟨hend, hfront⟩ : Ended ((elements d).flatten ++ lead) ∧
      NoImportLine ((elements d).flatten ++ lead) := by
    rcases hlead with rfl | ⟨rfl, hend⟩
    · exact ⟨ended_concat _, noImportLine_concat hno⟩
    · rw [List.append_nil]
      exact ⟨hend, hno⟩
  have hset : Settled (invariantSection contracts) :=
    settled_of_lined (hc.of_suffix (invariantSection_suffix contracts))
  by_cases hsi : ∃ l ∈ invariantSection contracts, isImport l = true
  · exact annotated_of_import_within hd hset hsi hno hend hfront
  · refine annotated_of_noImportLine hd hsec ?_
    rw [← List.append_assoc, ← List.append_assoc]
    exact noImportLine_concat
      ((noImportLine_append hend _).2 ⟨hfront, hset.noImportLine_flatten hsi⟩)

end ImportInvariants

/-! ## Annotated files -/

/-- The newline before the appended invariants, unless the text ends with a `\r` that takes it
in. -/
def seam (t : List Char) : List Char := if t.getLast? = some '\r' then [] else ['\n']

/-- Appending the invariants to a text, seen after newlines are unified. -/
theorem unifyNewlines_append_appendix {t : List Char} {ls : List Line}
    (h : ∀ l ∈ ls, '\r' ∉ l) :
    unifyNewlines (t ++ appendix ls) = unifyNewlines t ++ (seam t ++ ls.flatten ++ ['\n']) := by
  have hcr : '\r' ∉ ls.flatten ++ ['\n'] := by
    intro hm
    rcases List.mem_append.1 hm with hm | hm
    · obtain ⟨l, hl, hm⟩ := List.mem_flatten.1 hm
      exact h l hl hm
    · exact absurd (List.mem_singleton.1 hm) (by decide)
  rw [appendix, seam, List.cons_append]
  by_cases ht : t.getLast? = some '\r'
  · rw [if_pos ht, unifyNewlines_append_shared ht, unifyNewlines_of_not_mem hcr, List.nil_append]
  · have hcr' : '\r' ∉ '\n' :: (ls.flatten ++ ['\n']) := by
      rw [List.mem_cons, not_or]
      exact ⟨by decide, hcr⟩
    rw [if_neg ht, unifyNewlines_append ht, unifyNewlines_of_not_mem hcr']
    rfl

theorem not_mem_linesOf {t : String} {l : Line} (h : l ∈ linesOf t) : '\r' ∉ l := by
  intro hm
  apply not_mem_unifyNewlines t.toList
  rw [← flatten_lines (unifyNewlines t.toList)]
  exact List.mem_flatten.2 ⟨l, h, hm⟩

theorem not_mem_importInvariants {core : Bool} {ls : List Line} (h : ∀ l ∈ ls, '\r' ∉ l) :
    '\r' ∉ (importInvariants core ls).flatten := by
  intro hm
  obtain ⟨l, hl, hm⟩ := List.mem_flatten.1 hm
  rcases mem_insertAt.1 hl with rfl | hl
  · exact (invariantImport_spec core).2.2 hm
  · exact h l hl hm

section Files

variable {w w' : World} {source contracts output : String}

/-- What the file holds after the invariants have been appended to `raw`. -/
theorem appendInvariants_output {raw ct : String} {u : Unit}
    (hout : w.disk.read output = .ok (.text raw)) (hct : w.disk.read contracts = .ok (.text ct))
    (h : appendInvariants source contracts output w = .ok u w') :
    ∃ out, w'.disk.read output = .ok (.text out) ∧
      ((invariantSection (linesOf ct) = [] ∧ out = raw) ∨
        invariantSection (linesOf ct) ≠ [] ∧
          out = String.ofList (importInvariants (isCorePath source) (lines (unifyNewlines
            (raw.toList ++ appendix (invariantSection (linesOf ct)))))).flatten) := by
  obtain ⟨ct', hct', hcases⟩ := appendInvariants_eq_ok h
  obtain rfl := Content.text.inj (Except.ok.inj (hct.symm.trans (Disk.read_of_load hct')))
  rcases hcases with ⟨hsec, rfl⟩ | ⟨hsec, d, t, hd, ht, hw⟩
  · exact ⟨raw, hout, .inl ⟨hsec, rfl⟩⟩
  · have hread := Disk.read_write_self (Disk.append_eq_ok hd hout)
    obtain rfl := Content.text.inj (Except.ok.inj (hread.symm.trans (Disk.read_of_load ht)))
    refine ⟨_, Disk.read_write_self hw, .inr ⟨hsec, ?_⟩⟩
    rw [linesOf.eq_1 (raw ++ _), String.toList_append, String.toList_ofList]

/-- Adding invariants to a file that is a dressed source leaves it annotated. -/
theorem annotated_of_appendInvariants {raw st ct : String} {d : Dressing} {u : Unit}
    (hout : w.disk.read output = .ok (.text raw)) (hct : w.disk.read contracts = .ok (.text ct))
    (hs : Dressing.source d = linesOf st)
    (hd : All (Piece (isCorePath source) (linesOf ct)) d)
    (hraw : (elements d).flatten = unifyNewlines raw.toList)
    (h : appendInvariants source contracts output w = .ok u w') :
    ∃ out, w'.disk.read output = .ok (.text out) ∧
      Annotated (seam raw.toList) (isCorePath source) (linesOf st) (linesOf ct)
        (unifyNewlines out.toList) := by
  obtain ⟨out, hread, ⟨hsec, rfl⟩ | ⟨hsec, hval⟩⟩ := appendInvariants_output hout hct h
  · exact ⟨out, hread, d, [], hs, hd, .nothing hsec, by rw [hraw, List.append_nil]⟩
  · refine ⟨out, hread, ?_⟩
    have hcr : ∀ l ∈ invariantSection (linesOf ct), '\r' ∉ l := fun l hl =>
      not_mem_linesOf ((invariantSection_suffix _).subset hl)
    have hlead : seam raw.toList = ['\n'] ∨
        seam raw.toList = [] ∧ Ended (elements d).flatten := by
      unfold seam
      split
      · next hr => exact .inr ⟨rfl, hraw ▸ ended_of_getLast? (getLast?_unifyNewlines hr)⟩
      · exact .inl rfl
    have hann := annotated_importInvariants hd (hs ▸ lined_lines _) (lined_lines _) hsec hlead
    rw [hs, hraw, ← unifyNewlines_append_appendix hcr] at hann
    rw [hval, String.toList_ofList, unifyNewlines_of_not_mem]
    · exact hann
    · apply not_mem_importInvariants
      intro l hl hm
      apply not_mem_unifyNewlines (raw.toList ++ appendix (invariantSection (linesOf ct)))
      rw [← flatten_lines (unifyNewlines _)]
      exact List.mem_flatten.2 ⟨l, hl, hm⟩

/-- The lines that are written with attributes are a dressed source. -/
theorem exists_dressing_output {st ct : String} {m : Merged} {core annotated : Bool}
    {ls : List Line} (h : merge (linesOf st) (linesOf ct) = .ok m)
    (hout : m.output? core annotated = some ls) :
    ∃ d, Dressing.source d = linesOf st ∧ All (Piece core (linesOf ct)) d ∧
      (elements d).flatten = ls.flatten ∧ '\r' ∉ ls.flatten := by
  obtain ⟨-, hd⟩ := merge_pieces core (lined_lines _) (fun l hl => not_mem_linesOf hl)
    (fun l hl => not_mem_linesOf hl) h
  have key : ∃ d, Dressing.source d = linesOf st ∧
      All (fun x => Piece core (linesOf ct) x ∧ '\r' ∉ x.text) d ∧
      (elements d).flatten = ls.flatten := by
    unfold Merged.output? at hout
    split at hout
    · obtain rfl := Option.some.inj hout
      cases annotated with
      | true => exact ⟨_, source_dressing _ m, hd, by rw [(merge_dressing h).2.2]; rfl⟩
      | false =>
        exact exists_dressing_withPreamble h hd ⟨.feature, featureLine_spec.2.2⟩
          ⟨.imports, (importsOf_spec core).2.2⟩
    · cases hout
  obtain ⟨d, hs, hp, he⟩ := key
  refine ⟨d, hs, fun e hm x hx => (hp e hm x hx).1, he, ?_⟩
  rw [← he]
  intro hm
  obtain ⟨t, ht, hm⟩ := List.mem_flatten.1 hm
  obtain ⟨e, hed, ht⟩ := List.mem_flatMap.1 ht
  rcases List.mem_append.1 ht with ht | ht
  · obtain ⟨x, hx, rfl⟩ := List.mem_map.1 ht
    exact (hp e hed x hx).2 hm
  · obtain rfl := List.mem_singleton.1 ht
    have hline : e.line ∈ linesOf st := hs ▸ List.mem_map_of_mem hed
    exact not_mem_linesOf hline hm

/-- Annotating never deletes, edits or reorders source text: with newlines unified, the output is
the source with pieces before its lines and the type invariants at its end. The newline before
these is missing only where a file without new attributes ends with `\r`. -/
theorem annotate_keeps_source (hdir : w.disk.hasDirectory output = false)
    (hapart : w.disk.Apart contracts output)
    (h : annotate source contracts output w = .ok () w') :
    ∃ st ct out m, w.disk.read source = .ok (.text st) ∧
      w.disk.read contracts = .ok (.text ct) ∧ w'.disk.read output = .ok (.text out) ∧
      merge (linesOf st) (linesOf ct) = .ok m ∧
      Annotated (if m.hasAttributes then ['\n'] else seam st.toList) (isCorePath source)
        (linesOf st) (linesOf ct) (unifyNewlines out.toList) := by
  obtain ⟨attributes, w₁, h₁, h⟩ := Effect.bind_eq_ok_iff.1 h
  obtain ⟨st, ct, m, annotated, hst, hct, hm, -, hwritten⟩ := insertContracts_eq_ok h₁
  have hreads := And.intro (Disk.read_of_load hst) (Disk.read_of_load hct)
  obtain ⟨w₂, h₂, hcopy⟩ := insertInvariants_eq_ok h
  rcases hwritten with ⟨rfl, hno, rfl⟩ | ⟨ls, rfl, hls, hw⟩
  · -- the source is copied as it is stored
    obtain ⟨hf, -⟩ | ⟨-, c, d, l, mode, hc, hw, hdisk⟩ := hcopy
    · cases hf
    obtain rfl := Except.ok.inj (hst.symm.trans hc)
    rw [Disk.copyTarget, hdir, if_neg Bool.false_ne_true] at hw
    have hkept : ∀ path, w₂.disk.read path = d.read path := fun path => by
      rw [hdisk, Disk.read_setMode]
    obtain ⟨out, hread, hann⟩ := annotated_of_appendInvariants (d := bare (linesOf st))
      ((hkept output).trans (Disk.read_write_self hw))
      ((hkept contracts).trans (Disk.read_write_of_apart hw hapart hreads.2)) (source_bare _)
      (all_bare _ _) (by rw [elements_bare, linesOf, flatten_lines]) h₂
    refine ⟨st, ct, out, m, hreads.1, hreads.2, hread, hm, ?_⟩
    rwa [hno, if_neg Bool.false_ne_true]
  · -- the merged lines are written, and nothing in them is a `\r`
    have hhas : m.hasAttributes = true := by
      unfold Merged.output? at hls
      split at hls
      · next hh => exact hh
      · cases hls
    have hread₁ := Disk.read_write_self hw
    obtain ⟨-, -, rfl⟩ | ⟨hf | hf, -⟩ := hcopy
    · obtain ⟨d, hs, hd, he, hcr⟩ := exists_dressing_output hm hls
      obtain ⟨out, hread, hann⟩ := annotated_of_appendInvariants hread₁
        (Disk.read_write_of_apart hw hapart hreads.2) hs hd
        (by rw [String.toList_ofList, unifyNewlines_of_not_mem hcr, he]) h₂
      refine ⟨st, ct, out, m, hreads.1, hreads.2, hread, hm, ?_⟩
      have hseam : seam (String.ofList ls.flatten).toList = ['\n'] := by
        rw [String.toList_ofList, seam, if_neg]
        exact fun hl => hcr (List.mem_of_getLast? hl)
      rwa [hhas, if_pos rfl, ← hseam]
    · cases hf
    · rw [Disk.has_of_read hread₁] at hf
      cases hf

end Files

/-- A source with a contract and a type invariant. -/
theorem annotate_keeps_source_with_invariants :
    let st := "fn f() \x7b\x7d\r\nuse x;\n"
    let ct := "_None\n#[requires(true)]\nf\n\nType invariants:\nimpl Invariant for S \x7b\x7d\n"
    let w := World.ofFiles [("s.rs", st), ("c.rs", ct)]
    w.disk.hasDirectory "o.rs" = false ∧ w.disk.Apart "c.rs" "o.rs" ∧
      ∃ w' out, annotate "s.rs" "c.rs" "o.rs" w = .ok () w' ∧
        w'.disk.read "o.rs" = .ok (.text out) ∧
        Annotated ['\n'] false (linesOf st) (linesOf ct) (unifyNewlines out.toList) := by
  intro st ct w
  have hdir : w.disk.hasDirectory "o.rs" = false := by decide +kernel
  have hapart : w.disk.Apart "c.rs" "o.rs" := Disk.apart_of_locate_ne (by decide +kernel)
  obtain ⟨_, w', h, -⟩ := Effect.exists_of_returns (x := annotate "s.rs" "c.rs" "o.rs") (w := w)
    (p := fun _ _ => true) (by decide +kernel)
  obtain ⟨st', ct', out, m, hst, hct, hread, hm, hann⟩ := annotate_keeps_source hdir hapart h
  obtain rfl : st' = st :=
    Content.text.inj (eq_of_toOption_eq_some (by decide +kernel) hst)
  obtain rfl : ct' = ct :=
    Content.text.inj (eq_of_toOption_eq_some (by decide +kernel) hct)
  have hmerge : (merge (linesOf st) (linesOf ct)).toOption.any Merged.hasAttributes = true := by
    decide +kernel
  obtain ⟨m', hm', hhas⟩ := exists_of_toOption_any hmerge
  obtain rfl := Except.ok.inj (hm.symm.trans hm')
  have hcore : isCorePath "s.rs" = false := by decide +kernel
  rw [hhas, if_pos rfl, hcore] at hann
  exact ⟨hdir, hapart, w', out, h, hread, hann⟩

/-- Where the source ends with `\r`, the newline before the invariants is lost. -/
theorem annotate_shares_newline :
    let st := "a\r"
    let ct := "type invariant\ninv\n"
    let w := World.ofFiles [("s.rs", st), ("c.rs", ct)]
    w.disk.hasDirectory "o.rs" = false ∧ w.disk.Apart "c.rs" "o.rs" ∧
      ∃ w' out, annotate "s.rs" "c.rs" "o.rs" w = .ok () w' ∧
        w'.disk.read "o.rs" = .ok (.text out) ∧
        ¬ Annotated ['\n'] false (linesOf st) (linesOf ct) (unifyNewlines out.toList) := by
  intro st ct w
  let out := "use core::ub_checks::Invariant;\n\na\ninv\n\n"
  obtain ⟨_, w', h, hp⟩ := Effect.exists_of_returns (x := annotate "s.rs" "c.rs" "o.rs") (w := w)
    (p := fun _ w' => (w'.disk.read "o.rs").toOption == some (.text out)) (by decide +kernel)
  have hread : w'.disk.read "o.rs" = .ok (.text out) := by
    cases hr : w'.disk.read "o.rs" with
    | error e => rw [hr] at hp; cases hp
    | ok c =>
      rw [hr] at hp
      rw [Option.some.inj (eq_of_beq hp)]
  refine ⟨by decide +kernel, Disk.apart_of_locate_ne (by decide +kernel), w', out, h, hread, ?_⟩
  have hst : linesOf st = [['a', '\n']] := by decide +kernel
  have hct : invariantSection (linesOf ct) = [['i', 'n', 'v', '\n']] := by decide +kernel
  have hout : ¬ "a\n\ninv\n\n".toList <:+ unifyNewlines out.toList := by decide +kernel
  rintro ⟨d, ending, hs, -, hend, htext⟩
  rw [hct] at hend
  rw [hst] at hs
  obtain ⟨e, rfl, he⟩ := List.map_eq_singleton_iff.1 hs
  cases hend with
  | nothing hnil => cases hnil
  | front _ hd => cases hd
  | @within before rest l hsplit _ hl =>
    have hfree : ∀ l ∈ [['i', 'n', 'v', '\n']], isImport l = false := by decide
    have hno := hfree l (by rw [hsplit]; simp)
    exact nomatch hno.symm.trans hl
  | plain _ =>
    apply hout
    refine ⟨(e.gap.map Extra.text).flatten, ?_⟩
    rw [htext, elements_cons, he]
    simp [elements]

end Covenant.Merge
