import Covenant.Proofs.Merge.Dressing
import Covenant.Proofs.Sweep.Scan

/-!
# Sites in a source with insertions

Attributes that stand before the header of a function are passed over by a scan. A dressing with no
other insertions is `Tame`: a block has the same sites in its elements as in its source
(`siteAt_elements`), and putting more attributes at a site keeps it so (`tame_addAt`).
-/

namespace Covenant.Merge

open Text Header Contracts

namespace Dressing

/-! ## Numbers of lines and elements -/

/-- The number of line `k` among the elements. -/
def lineIndex : Dressing → Nat → Nat
  | [], _ => 0
  | e :: _, 0 => e.gap.length
  | e :: d, k + 1 => e.gap.length + 1 + lineIndex d k

/-- The line in whose gap, or at which, element `n` stands. -/
def lineOf : Dressing → Nat → Nat
  | [], _ => 0
  | e :: d, n => if n ≤ e.gap.length then 0 else lineOf d (n - (e.gap.length + 1)) + 1

/-- Puts `x` right before line `k`. -/
def addAt (k : Nat) (x : Extra) (d : Dressing) : Dressing :=
  d.modify k fun e => { e with gap := e.gap ++ [x] }

variable {d : Dressing} {k j : Nat} {x : Extra}

theorem lineIndex_mono (hk : k ≤ j) (hj : j < d.length) : lineIndex d k ≤ lineIndex d j := by
  induction d generalizing k j with
  | nil => simp at hj
  | cons e d ih =>
    cases k with
    | zero =>
      cases j with
      | zero => exact Nat.le_refl _
      | succ j => simp only [lineIndex]; omega
    | succ k =>
      cases j with
      | zero => omega
      | succ j =>
        have := ih (k := k) (j := j) (by omega) (by simpa using hj)
        simp only [lineIndex]
        omega

theorem lineOf_lineIndex (hk : k < d.length) : lineOf d (lineIndex d k) = k := by
  induction d generalizing k with
  | nil => simp at hk
  | cons e d ih =>
    cases k with
    | zero => simp [lineIndex, lineOf]
    | succ k =>
      have hd := ih (k := k) (by simpa using hk)
      rw [lineIndex, lineOf, if_neg (by omega), Nat.add_sub_cancel_left, hd]

theorem getElem?_elements (hk : k < d.length) : (elements d)[lineIndex d k]? = (source d)[k]? := by
  induction d generalizing k with
  | nil => simp at hk
  | cons e d ih =>
    cases k with
    | zero => simp [lineIndex, source]
    | succ k =>
      have hd := ih (k := k) (by simpa using hk)
      rw [elements_cons, lineIndex, Nat.add_assoc, List.getElem?_append_right (by simp),
        List.length_map, Nat.add_sub_cancel_left, Nat.add_comm, List.getElem?_cons_succ, hd]
      rfl

/-- No text stands after the last line. -/
theorem getLast?_elements (d : Dressing) : (elements d).getLast? = (source d).getLast? := by
  induction d with
  | nil => rfl
  | cons e d ih =>
    rw [elements_cons, List.getLast?_append, List.getLast?_cons, ih]
    show _ = (e.line :: source d).getLast?
    rw [List.getLast?_cons]
    rfl

@[simp] theorem length_addAt (k : Nat) (x : Extra) (d : Dressing) :
    (addAt k x d).length = d.length :=
  List.length_modify ..

@[simp] theorem addAt_cons_zero (e : DressedLine) (d : Dressing) (x : Extra) :
    addAt 0 x (e :: d) = { e with gap := e.gap ++ [x] } :: d := rfl

@[simp] theorem addAt_cons_succ (e : DressedLine) (d : Dressing) (k : Nat) (x : Extra) :
    addAt (k + 1) x (e :: d) = e :: addAt k x d := rfl

@[simp] theorem source_addAt (k : Nat) (x : Extra) (d : Dressing) :
    source (addAt k x d) = source d := by
  induction d generalizing k with
  | nil => cases k <;> rfl
  | cons e d ih =>
    cases k with
    | zero => rfl
    | succ k =>
      rw [addAt_cons_succ]
      exact congrArg (e.line :: ·) (ih k)

/-- Inserting at the number of a line is inserting right before the line. -/
theorem insertBefore_lineIndex (hk : k < d.length) :
    insertBefore (lineIndex d k) x d = addAt k x d := by
  induction d generalizing k with
  | nil => simp at hk
  | cons e d ih =>
    cases k with
    | zero => simp [lineIndex, insertBefore, insertAt]
    | succ k =>
      have hd := ih (k := k) (by simpa using hk)
      rw [lineIndex, insertBefore, if_neg (by omega), Nat.add_sub_cancel_left, hd, addAt_cons_succ]

/-- The lines below get the next number. -/
theorem lineIndex_addAt (hk : k < j) (hj : j < d.length) :
    lineIndex (addAt k x d) j = lineIndex d j + 1 := by
  induction d generalizing k j with
  | nil => simp at hj
  | cons e d ih =>
    cases j with
    | zero => omega
    | succ j =>
      cases k with
      | zero =>
        simp only [addAt_cons_zero, lineIndex, List.length_append, List.length_cons,
          List.length_nil]
        omega
      | succ k =>
        rw [addAt_cons_succ, lineIndex, lineIndex, ih (by omega) (by simpa using hj)]
        omega

/-- The attributes stand in the gap before line `k`. -/
def Carries (d : Dressing) (k : Nat) (text : Line) : Prop :=
  ∃ e, d[k]? = some e ∧ .attributes text ∈ e.gap

theorem carries_addAt {text : Line} (h : d.Carries j text) : (addAt k x d).Carries j text := by
  obtain ⟨e, he, hmem⟩ := h
  by_cases hkj : k = j
  · subst hkj
    refine ⟨{ e with gap := e.gap ++ [x] }, ?_, List.mem_append_left _ hmem⟩
    rw [addAt, List.getElem?_modify_eq, he]
    rfl
  · refine ⟨e, ?_, hmem⟩
    rw [addAt, List.getElem?_modify_ne _ _ hkj, he]

theorem carries_addAt_self {text : Line} (hk : k < d.length) :
    (addAt k (.attributes text) d).Carries k text := by
  obtain ⟨e, he⟩ : ∃ e, d[k]? = some e := ⟨_, List.getElem?_eq_getElem hk⟩
  refine ⟨{ e with gap := e.gap ++ [.attributes text] }, ?_,
    List.mem_append_right _ List.mem_cons_self⟩
  rw [addAt, List.getElem?_modify_eq, he]
  rfl

/-! ## One pass -/

/-- The attributes of placements, each put right before its line. -/
def attach (line : Placement → Nat) (ps : List Placement) (d : Dressing) : Dressing :=
  ps.foldl (fun d p => addAt (line p) (.attributes p.text) d) d

/-- The insertions of a sweep, by number, put each text right before the line it is for. -/
theorem insertEach_numbered {line : Placement → Nat} {ps : List Placement} {n : Nat}
    (hline : ∀ p ∈ ps, line p < d.length ∧ p.index + n = lineIndex d (line p))
    (hps : ps.Pairwise fun p q => line p < line q) :
    d.insertEach (numbered n ps) = attach line ps d := by
  induction ps generalizing d n with
  | nil => rfl
  | cons p ps ih =>
    obtain ⟨hp, hps⟩ := List.pairwise_cons.1 hps
    obtain ⟨hlt, hidx⟩ := hline p List.mem_cons_self
    have hhead : insertBefore (p.index + n) (.attributes p.text) d =
        addAt (line p) (.attributes p.text) d := by
      rw [hidx, insertBefore_lineIndex hlt]
    show insertEach (insertBefore (p.index + n) (.attributes p.text) d) (numbered (n + 1) ps) =
      attach line ps (addAt (line p) (.attributes p.text) d)
    rw [hhead]
    refine ih (fun q hq => ?_) hps
    obtain ⟨hq', hqi⟩ := hline q (List.mem_cons_of_mem _ hq)
    rw [length_addAt, lineIndex_addAt (hp q hq) hq', ← hqi]
    exact ⟨hq', by omega⟩

theorem attach_induction {line : Placement → Nat} {ps : List Placement} {P : Dressing → Prop}
    (h0 : P d) (h : ∀ p ∈ ps, ∀ d, P d → P (addAt (line p) (.attributes p.text) d)) :
    P (attach line ps d) := by
  induction ps generalizing d with
  | nil => exact h0
  | cons p ps ih =>
    exact ih (h p List.mem_cons_self d h0) fun q hq => h q (List.mem_cons_of_mem _ hq)

theorem carries_attach {line : Placement → Nat} {ps : List Placement} {p : Placement}
    (hp : p ∈ ps) (hline : line p < d.length) : (attach line ps d).Carries (line p) p.text := by
  induction ps generalizing d with
  | nil => cases hp
  | cons q ps ih =>
    rcases List.mem_cons.1 hp with rfl | hp
    · show (attach line ps (addAt (line p) (.attributes p.text) d)).Carries (line p) p.text
      exact attach_induction (P := fun d => d.Carries (line p) p.text) (carries_addAt_self hline)
        fun _ _ _ h => carries_addAt h
    · exact ih hp (by rwa [length_addAt])

end Dressing

/-! ## Texts that a scan passes over -/

/-- The text opens and closes nothing and is not the name of a block. -/
structure Quiet (cs : List Contract) (text : Line) : Prop where
  opens : opensScope text = false
  closes : ∀ scope : Scope, (∀ c ∈ scope.indent, isBlank c = true) → scope.closedBy text = false
  names : ∀ c ∈ cs, declaredName (strip text) ≠ c.name

/-- Indented attributes are passed over. -/
theorem quiet_indented {cs : List Contract} {indent : Line} {attributes : List Line}
    (hindent : ∀ c ∈ indent, isBlank c = true) (ha : ∀ a ∈ attributes, isAttribute a = true) :
    Quiet cs (indented indent attributes) := by
  cases attributes with
  | nil =>
    show Quiet cs []
    refine ⟨by decide, fun scope hs => closedBy_of_head?_ne hs (by decide), fun c _ h => ?_⟩
    exact c.name_ne_nil (h.symm.trans (by decide))
  | cons a as =>
    have hattr := isAttribute_indented hindent (ha a List.mem_cons_self) as
    obtain ⟨hopens, hcloses, hname⟩ := plain_of_isAttribute hattr
    refine ⟨hopens, hcloses, fun c _ h => ?_⟩
    have hname' : isAttribute c.name = true := by
      rw [← h, hname, isAttribute, strip_strip]
      exact hattr
    exact Bool.false_ne_true (c.name_not_attribute.symm.trans hname')

section Quiet

variable {cs : List Contract} {c : Contract} {σ : Scan} {ls : List Line}

/-- Quiet lines leave the items as they are, and no block has a site among them. -/
theorem through_quiet (hm : σ.mode ≠ .second) (hls : ∀ l ∈ ls, Quiet cs l) :
    σ.through ls = σ ∨ σ.through ls = σ.withMode .free := by
  induction ls generalizing σ with
  | nil => exact .inl rfl
  | cons l ls ih =>
    have hl := hls l List.mem_cons_self
    have hnext : σ.next l = σ.withMode .free := Scan.next_of_plain hm hl.opens hl.closes
    have hrest := ih (σ := σ.withMode .free) (by simp) fun l' h => hls l' (List.mem_cons_of_mem _ h)
    rw [Scan.withMode_withMode, or_self] at hrest
    right
    show (σ.next l).through ls = _
    rw [hnext, hrest]

theorem not_siteAt_quiet {k : Nat} (hc : c ∈ cs) (hls : ∀ l ∈ ls, Quiet cs l) :
    ¬ SiteAt c σ ls k := by
  rintro ⟨l, hl, -, -, hname⟩
  exact (hls l (List.mem_of_getElem? hl)).names c hc hname

end Quiet

/-! ## Tame dressings -/

/-- Where there are insertions, they are quiet and stand before the header of a function. -/
def Tame (cs : List Contract) (σ : Scan) : Dressing → Prop
  | [] => True
  | e :: d =>
    (e.gap ≠ [] → σ.mode ≠ .second ∧ isFunction e.line = true) ∧
      (∀ x ∈ e.gap, Quiet cs x.text) ∧ Tame cs (σ.next e.line) d

section Tame

open Dressing

variable {cs : List Contract} {c : Contract} {σ : Scan} {d : Dressing} {k n : Nat}

theorem tame_bare (ls : List Line) : Tame cs σ (bare ls) := by
  induction ls generalizing σ with
  | nil => trivial
  | cons l ls ih => exact ⟨fun h => absurd rfl h, fun _ h => absurd h List.not_mem_nil, ih⟩

theorem quiet_of_tame (h : Tame cs σ d) : d.All fun x => Quiet cs x.text := by
  induction d generalizing σ with
  | nil => exact fun _ h => absurd h List.not_mem_nil
  | cons e d ih =>
    intro e' he'
    rcases List.mem_cons.1 he' with rfl | he'
    · exact h.2.1
    · exact ih h.2.2 e' he'

theorem quiet_gap {e : DressedLine} (h : Tame cs σ (e :: d)) :
    ∀ l ∈ e.gap.map Extra.text, Quiet cs l := by
  intro l hl
  obtain ⟨x, hx, rfl⟩ := List.mem_map.1 hl
  exact h.2.1 x hx

/-- After the gap of a line the scan is where it would be without it, and stays so below. -/
theorem through_gap {e : DressedLine} (h : Tame cs σ (e :: d)) :
    ((σ.through (e.gap.map Extra.text)).Fits c e.line ↔ σ.Fits c e.line) ∧
      (σ.through (e.gap.map Extra.text)).next e.line = σ.next e.line := by
  by_cases hgap : e.gap = []
  · rw [hgap]
    exact ⟨Iff.rfl, rfl⟩
  · obtain ⟨hm, hf⟩ := h.1 hgap
    have hopens := opensScope_of_isFunction hf
    have hcloses := (plain_of_isFunction hf).1
    rcases through_quiet hm (quiet_gap h) with he | he
    · rw [he]
      exact ⟨Iff.rfl, rfl⟩
    · rw [he, Scan.next_of_plain (by simp) hopens hcloses, Scan.next_of_plain hm hopens hcloses]
      exact ⟨by simp [Scan.Fits, hm], rfl⟩

/-- A block has the same sites with and without the insertions. -/
theorem siteAt_elements (hc : c ∈ cs) (h : Tame cs σ d) :
    SiteAt c σ (elements d) n ↔ ∃ k, n = d.lineIndex k ∧ SiteAt c σ d.source k := by
  induction d generalizing σ n with
  | nil => simp [SiteAt, Dressing.source]
  | cons e d ih =>
    obtain ⟨hfits, hnext⟩ := through_gap (c := c) h
    rw [elements_cons]
    by_cases hn : n < (e.gap.map Extra.text).length
    · rw [siteAt_append_left hn]
      refine ⟨fun hs => absurd hs (not_siteAt_quiet hc (quiet_gap h)), ?_⟩
      rintro ⟨k, rfl, -⟩
      rw [List.length_map] at hn
      cases k <;> simp only [lineIndex] at hn <;> omega
    · obtain ⟨j, rfl⟩ := Nat.exists_eq_add_of_le (Nat.le_of_not_lt hn)
      rw [siteAt_append_right, List.length_map]
      cases j with
      | zero =>
        rw [siteAt_zero, hfits]
        constructor
        · exact fun hs => ⟨0, rfl, siteAt_zero.2 hs⟩
        · rintro ⟨k, hk, hs⟩
          cases k with
          | zero => exact siteAt_zero.1 hs
          | succ k => simp only [lineIndex] at hk; omega
      | succ j =>
        rw [siteAt_succ, hnext, ih h.2.2]
        constructor
        · rintro ⟨k, rfl, hs⟩
          exact ⟨k + 1, by simp only [lineIndex]; omega, siteAt_succ.2 hs⟩
        · rintro ⟨k, hk, hs⟩
          cases k with
          | zero => simp only [lineIndex] at hk; omega
          | succ k =>
            refine ⟨k, ?_, siteAt_succ.1 hs⟩
            simp only [lineIndex] at hk
            omega

theorem hasSite_elements (hc : c ∈ cs) (h : Tame cs σ d) :
    HasSite c σ (elements d) ↔ HasSite c σ d.source := by
  constructor
  · rintro ⟨n, hn⟩
    obtain ⟨k, -, hk⟩ := (siteAt_elements hc h).1 hn
    exact ⟨k, hk⟩
  · rintro ⟨k, hk⟩
    exact ⟨_, (siteAt_elements hc h).2 ⟨k, rfl, hk⟩⟩

/-- More quiet text before the header of a function at a site. -/
theorem tame_addAt {x : Extra} (h : Tame cs σ d) (hs : SiteAt c σ d.source k)
    (hf : ∀ l ∈ d.source, declaredName (strip l) = c.name → isFunction l = true)
    (hx : Quiet cs x.text) : Tame cs σ (addAt k x d) := by
  induction d generalizing σ k with
  | nil => cases k <;> trivial
  | cons e d ih =>
    obtain ⟨hgap, hquiet, hd⟩ := h
    cases k with
    | zero =>
      obtain ⟨hm, -, hname⟩ := siteAt_zero.1 hs
      refine ⟨fun _ => ⟨hm, hf e.line List.mem_cons_self hname⟩, fun y hy => ?_, hd⟩
      rcases List.mem_append.1 hy with hy | hy
      · exact hquiet y hy
      · obtain rfl := List.mem_singleton.1 hy
        exact hx
    | succ k =>
      exact ⟨hgap, hquiet,
        ih hd (siteAt_succ.1 hs) fun l hl => hf l (List.mem_cons_of_mem _ hl)⟩

/-- The names of blocks are declared in the elements where they are in the source. -/
theorem mem_source_of_declaredName {l : Line} (h : Tame cs σ d) (hc : c ∈ cs)
    (hl : l ∈ elements d) (hname : declaredName (strip l) = c.name) : l ∈ d.source := by
  obtain ⟨e, he, hle⟩ := List.mem_flatMap.1 hl
  rcases List.mem_append.1 hle with hle | hle
  · obtain ⟨x, hx, rfl⟩ := List.mem_map.1 hle
    exact absurd hname ((quiet_of_tame h e he x hx).names c hc)
  · rw [List.mem_singleton.1 hle]
    exact List.mem_map_of_mem he

end Tame

end Covenant.Merge
