import Covenant.Merge.Preamble
import Covenant.Proofs.Sweep.Placement

/-!
# Source lines and what stands before them

Insertions are made by number, into lines that hold earlier insertions. A `Dressing` keeps the two
apart: for each line of the source it has the texts that stand before it. Inserting by number into
the elements of a dressing is inserting into one of its gaps (`elements_insertBefore`), so a merge
never touches the source (`merge_dressing`).
-/

namespace Covenant.Merge

open Text Contracts

/-! ## Inserting by number -/

section InsertAt

variable {α : Type} {n : Nat} {x : α} {a b : List α}

@[simp] theorem length_insertAt (n : Nat) (x : α) (ls : List α) :
    (insertAt n x ls).length = ls.length + 1 := by
  simp only [insertAt, List.length_append, List.length_take, List.length_cons, List.length_drop]
  omega

theorem insertAt_append_left (h : n ≤ a.length) : insertAt n x (a ++ b) = insertAt n x a ++ b := by
  simp [insertAt, List.take_append_of_le_length h, List.drop_append_of_le_length h]

theorem insertAt_append_right (h : a.length ≤ n) :
    insertAt n x (a ++ b) = a ++ insertAt (n - a.length) x b := by
  simp [insertAt, List.take_append, List.drop_append, List.take_of_length_le h,
    List.drop_of_length_le h]

theorem mem_insertAt {y : α} {ls : List α} : y ∈ insertAt n x ls ↔ y = x ∨ y ∈ ls := by
  conv => rhs; rw [← List.take_append_drop n ls]
  simp only [insertAt, List.mem_append, List.mem_cons]
  exact ⟨fun h => h.elim (.inr ∘ .inl) (·.elim .inl (.inr ∘ .inr)),
    fun h => h.elim (.inr ∘ .inl) (·.elim .inl (.inr ∘ .inr))⟩

theorem map_insertAt {β : Type} (f : α → β) (ls : List α) :
    (insertAt n x ls).map f = insertAt n (f x) (ls.map f) := by
  simp [insertAt, List.map_take, List.map_drop]

theorem drop_insertAt {v : Nat} {ls : List α} (h : n ≤ v) (hn : n ≤ ls.length) :
    (insertAt n x ls).drop (v + 1) = ls.drop v := by
  have hlen : (ls.take n).length = n := by rw [List.length_take]; omega
  rw [insertAt, List.drop_append, List.drop_of_length_le (by omega), hlen,
    show v + 1 - n = v - n + 1 by omega, List.drop_succ_cons, List.drop_drop, List.nil_append,
    show n + (v - n) = v by omega]

theorem mem_take_insertAt {v : Nat} {y : α} {ls : List α} (h : n ≤ v) (hn : n ≤ ls.length) :
    y ∈ (insertAt n x ls).take (v + 1) ↔ y = x ∨ y ∈ ls.take v := by
  have hlen : (ls.take n).length = n := by rw [List.length_take]; omega
  have hleft : (insertAt n x ls).take (v + 1) = ls.take n ++ x :: (ls.drop n).take (v - n) := by
    rw [insertAt, List.take_append, List.take_of_length_le (by omega), hlen,
      show v + 1 - n = v - n + 1 by omega, List.take_succ_cons]
  have hright : ls.take v = ls.take n ++ (ls.drop n).take (v - n) := by
    rw [← List.take_add, show n + (v - n) = v by omega]
  rw [hleft, hright]
  simp only [List.mem_append, List.mem_cons]
  exact or_left_comm

end InsertAt

theorem length_insertAll (ls : List Line) (is : List Insertion) :
    (insertAll ls is).length = ls.length + is.length := by
  induction is generalizing ls with
  | nil => rfl
  | cons i is ih =>
    have := ih (insertAt i.index i.text ls)
    rw [length_insertAt] at this
    rw [List.length_cons, show insertAll ls (i :: is) = insertAll (insertAt i.index i.text ls) is
      from rfl, this]
    omega

theorem insertAll_append (ls : List Line) (is js : List Insertion) :
    insertAll ls (is ++ js) = insertAll (insertAll ls is) js :=
  List.foldl_append

/-- Each insertion is before a line that is there when it is made, in a list that starts with `n`
lines. -/
def Bounded : Nat → List Insertion → Prop
  | _, [] => True
  | n, i :: is => i.index < n ∧ Bounded (n + 1) is

theorem bounded_append {n : Nat} {is js : List Insertion} :
    Bounded n (is ++ js) ↔ Bounded n is ∧ Bounded (n + is.length) js := by
  induction is generalizing n with
  | nil => simp [Bounded]
  | cons i is ih =>
    rw [List.cons_append, Bounded, Bounded, ih, List.length_cons, and_assoc,
      show n + 1 + is.length = n + (is.length + 1) by omega]

theorem bounded_numbered {n k : Nat} {ps : List Placement} (h : ∀ p ∈ ps, p.index < n) :
    Bounded (n + k) (numbered k ps) := by
  induction ps generalizing k with
  | nil => trivial
  | cons p ps ih =>
    have hp := h p List.mem_cons_self
    have hps := ih (k := k + 1) fun q hq => h q (List.mem_cons_of_mem _ hq)
    exact ⟨by show p.index + k < n + k; omega, hps⟩

/-! ## Dressings -/

/-- A text that is not of the source. -/
inductive Extra
  /-- The attributes of a contract block. -/
  | attributes (text : Line)
  /-- Imports or a feature. -/
  | preamble (text : Line)
  deriving DecidableEq, Repr

/-- The text itself. -/
def Extra.text : Extra → Line
  | .attributes t => t
  | .preamble t => t

@[simp] theorem Extra.text_attributes (t : Line) : (Extra.attributes t).text = t := rfl

@[simp] theorem Extra.text_preamble (t : Line) : (Extra.preamble t).text = t := rfl

/-- A line of the source with what stands before it. -/
structure DressedLine where
  gap : List Extra
  line : Line
  deriving DecidableEq, Repr

/-- The lines of a source with what stands before each. -/
abbrev Dressing := List DressedLine

namespace Dressing

/-- The source with nothing inserted. -/
def bare (source : List Line) : Dressing := source.map fun l => ⟨[], l⟩

/-- The lines of the source. -/
def source (d : Dressing) : List Line := d.map DressedLine.line

/-- All texts, each line of the source after those of its gap. -/
def elements (d : Dressing) : List Line := d.flatMap fun e => e.gap.map Extra.text ++ [e.line]

/-- Puts `x` before the element with number `n`. -/
def insertBefore (n : Nat) (x : Extra) : Dressing → Dressing
  | [] => []
  | e :: d =>
    if n ≤ e.gap.length then { e with gap := insertAt n x e.gap } :: d
    else e :: insertBefore (n - (e.gap.length + 1)) x d

/-- Every text in a gap has the property. -/
def All (Q : Extra → Prop) (d : Dressing) : Prop := ∀ e ∈ d, ∀ x ∈ e.gap, Q x

@[simp] theorem elements_nil : elements [] = [] := rfl

@[simp] theorem elements_cons (e : DressedLine) (d : Dressing) :
    elements (e :: d) = e.gap.map Extra.text ++ e.line :: elements d := by
  simp [elements]

@[simp] theorem source_bare (ls : List Line) : source (bare ls) = ls := by
  simp [source, bare, Function.comp_def]

@[simp] theorem elements_bare (ls : List Line) : elements (bare ls) = ls := by
  induction ls with
  | nil => rfl
  | cons l ls ih =>
    show elements (⟨[], l⟩ :: bare ls) = l :: ls
    rw [elements_cons, ih]
    rfl

theorem all_bare (Q : Extra → Prop) (ls : List Line) : All Q (bare ls) := by
  intro e he x hx
  obtain ⟨l, -, rfl⟩ := List.mem_map.1 he
  cases hx

@[simp] theorem source_insertBefore (n : Nat) (x : Extra) (d : Dressing) :
    source (insertBefore n x d) = source d := by
  induction d generalizing n with
  | nil => rfl
  | cons e d ih =>
    rw [insertBefore]
    split
    · rfl
    · show e.line :: source _ = e.line :: source d
      rw [ih]

/-- Inserting by number into the elements is inserting into a gap. -/
theorem elements_insertBefore {n : Nat} {d : Dressing} (x : Extra) (h : n < (elements d).length) :
    elements (insertBefore n x d) = insertAt n x.text (elements d) := by
  induction d generalizing n with
  | nil => simp at h
  | cons e d ih =>
    rw [insertBefore, elements_cons]
    split
    · next hn =>
      rw [elements_cons, map_insertAt, insertAt_append_left (by simpa using hn)]
    · next hn =>
      rw [elements_cons] at h
      simp only [List.length_append, List.length_map, List.length_cons] at h
      have hlen : (e.gap.map Extra.text ++ [e.line]).length = e.gap.length + 1 := by simp
      rw [elements_cons, ih (by omega), List.append_cons _ _ (insertAt _ _ _),
        List.append_cons _ _ (elements d), insertAt_append_right (by omega), hlen]

theorem all_insertBefore {Q : Extra → Prop} {n : Nat} {x : Extra} {d : Dressing} (h : All Q d)
    (hx : Q x) : All Q (insertBefore n x d) := by
  induction d generalizing n with
  | nil => exact h
  | cons e d ih =>
    have he := h e List.mem_cons_self
    have hd : All Q d := fun e' he' => h e' (List.mem_cons_of_mem _ he')
    rw [insertBefore]
    split
    · intro e' he' y hy
      rcases List.mem_cons.1 he' with rfl | he'
      · rcases mem_insertAt.1 hy with rfl | hy
        · exact hx
        · exact he y hy
      · exact hd e' he' y hy
    · intro e' he'
      rcases List.mem_cons.1 he' with rfl | he'
      · exact he
      · exact ih hd e' he'

end Dressing

open Dressing

/-- Puts the attributes of all insertions into the gaps. -/
def Dressing.insertEach (d : Dressing) (is : List Insertion) : Dressing :=
  is.foldl (fun d i => insertBefore i.index (.attributes i.text) d) d

theorem insertEach_append (d : Dressing) (is js : List Insertion) :
    d.insertEach (is ++ js) = (d.insertEach is).insertEach js :=
  List.foldl_append

@[simp] theorem source_insertEach (d : Dressing) (is : List Insertion) :
    source (d.insertEach is) = source d := by
  induction is generalizing d with
  | nil => rfl
  | cons i is ih =>
    rw [insertEach, List.foldl_cons]
    exact (ih _).trans (source_insertBefore ..)

theorem elements_insertEach {d : Dressing} {is : List Insertion}
    (h : Bounded (elements d).length is) :
    elements (d.insertEach is) = insertAll (elements d) is := by
  induction is generalizing d with
  | nil => rfl
  | cons i is ih =>
    have he := elements_insertBefore (.attributes i.text) h.1
    rw [insertEach, List.foldl_cons, insertAll, List.foldl_cons]
    refine (ih ?_).trans (by rw [he]; rfl)
    rw [he, length_insertAt]
    exact h.2

theorem all_insertEach {Q : Extra → Prop} {d : Dressing} {is : List Insertion} (h : All Q d)
    (hQ : ∀ i ∈ is, Q (.attributes i.text)) : All Q (d.insertEach is) := by
  induction is generalizing d with
  | nil => exact h
  | cons i is ih =>
    exact ih (all_insertBefore h (hQ i List.mem_cons_self)) fun j hj =>
      hQ j (List.mem_cons_of_mem _ hj)

/-! ## Merges -/

section Induction

variable {source contracts : List Line} {P : Merged → Prop}
  (hadd : ∀ m start s, P m → sweep m.lines (contracts.drop start) = .ok s → P (m.add s))

include hadd in
theorem resume_induction {m m' : Merged} {start : Nat} (h0 : P m)
    (h : resume contracts m start = .ok m') : P m' := by
  fun_induction resume contracts m start with
  | case1 => cases h
  | case2 m start s hs _ =>
    obtain rfl := Except.ok.inj h
    exact hadd m start s h0 hs
  | case3 m start s hs next hn hlt ih => exact ih (hadd m start s h0 hs) h
  | case4 m start s hs next hn hlt skipped hsk ih => exact ih (hadd m start s h0 hs) h
  | case5 m start s hs next hn hlt skipped hsk =>
    obtain rfl := Except.ok.inj h
    exact hadd m start s h0 hs

include hadd in
/-- What holds of a source with nothing inserted, and is kept by every pass, holds of a merge. -/
theorem merge_induction {m : Merged} (h0 : ∀ u a, P ⟨source, [], u, a⟩)
    (h : merge source contracts = .ok m) : P m := by
  unfold merge at h
  split at h
  · cases h
  · next s hs =>
    have h1 := hadd ⟨source, [], s.importLine, s.attributeLine⟩ 0 s (h0 _ _) hs
    simp only at h
    split at h
    · obtain rfl := Except.ok.inj h
      exact h1
    · exact resume_induction hadd h1 h

end Induction

/-- The source of a merge with what was inserted before each line. -/
def Merged.dressing (source : List Line) (m : Merged) : Dressing :=
  (bare source).insertEach m.inserted

@[simp] theorem source_dressing (source : List Line) (m : Merged) :
    Dressing.source (m.dressing source) = source := by
  rw [Merged.dressing, source_insertEach, source_bare]

/-- The insertions of one pass are all before lines that are there. -/
theorem bounded_found {ls contracts : List Line} {s : Sweep} (h : sweep ls contracts = .ok s) :
    Bounded ls.length s.found := by
  rw [found_sweep h]
  refine bounded_numbered (k := 0) fun p hp => ?_
  exact (List.getElem?_eq_some_iff.1 (placed_fits h hp).line_eq).1

theorem elements_dressing_add {source contracts : List Line} {m : Merged} {s : Sweep}
    (he : elements (m.dressing source) = m.lines) (hs : sweep m.lines contracts = .ok s) :
    elements ((m.add s).dressing source) = (m.add s).lines := by
  show elements (insertEach _ (m.inserted ++ s.found)) = insertAll m.lines s.found
  rw [insertEach_append, elements_insertEach, ← he]
  · rfl
  · exact he ▸ bounded_found hs

/-- A merge makes all its insertions, and every one goes into a gap of the source. -/
theorem merge_dressing {source contracts : List Line} {m : Merged}
    (h : merge source contracts = .ok m) :
    m.lines = insertAll source m.inserted ∧ Bounded source.length m.inserted ∧
      elements (m.dressing source) = m.lines := by
  refine merge_induction
    (P := fun m => m.lines = insertAll source m.inserted ∧ Bounded source.length m.inserted ∧
      elements (m.dressing source) = m.lines) (fun m start s hm hs => ?_) (fun u a => ?_) h
  · obtain ⟨hl, hb, he⟩ := hm
    have hf : Bounded m.lines.length s.found := bounded_found hs
    refine ⟨?_, bounded_append.2 ⟨hb, ?_⟩, elements_dressing_add he hs⟩
    · rw [Merged.add, insertAll_append, ← hl]
    · rwa [hl, length_insertAll] at hf
  · exact ⟨rfl, trivial, elements_bare source⟩

end Covenant.Merge
