import Covenant.Proofs.Merge.Dressing
import Covenant.Proofs.World.Effect

/-!
# Where the insertions of a sweep go

A sweep gives its insertions by number, each moved down by those that are made before it. Made one
after the other they put every text directly before the line it is for (`insertAll_numbered`), and
each text is made of the attributes of a block of its own (`sweepAt_positions`).

A sweep that begins at a line whose number counts from the end reads the contracts once more from
the first line on when it has come to the end. Then a block can be read twice
(`sweepAt_reads_twice`).
-/

namespace Covenant.Merge

open Text Header Contracts

/-! ## Texts before their lines -/

/-- The lines, the first of which has number `i`, each behind the texts that are placed at it. -/
def woven (ps : List Placement) (i : Nat) (ls : List Line) : List Line :=
  (ls.zipIdx i).flatMap fun x => (ps.filter fun p => p.index == x.2).map Placement.text ++ [x.1]

theorem woven_cons (ps : List Placement) (i : Nat) (line : Line) (ls : List Line) :
    woven ps i (line :: ls) =
      (ps.filter fun p => p.index == i).map Placement.text ++ line :: woven ps (i + 1) ls := by
  simp [woven, List.zipIdx_cons]

/-- A text for a line above is not among those for the lines below. -/
theorem woven_cons_of_lt {p : Placement} {i : Nat} (h : p.index < i) (ps : List Placement)
    (ls : List Line) : woven (p :: ps) i ls = woven ps i ls := by
  induction ls generalizing i with
  | nil => rfl
  | cons line ls ih =>
    have hne : (p.index == i) = false := beq_eq_false_iff_ne.2 (by omega)
    rw [woven_cons, woven_cons, ih (by omega), List.filter_cons, hne, if_neg Bool.false_ne_true]

theorem filter_index_eq_nil {ps : List Placement} {i : Nat} (h : ∀ p ∈ ps, i < p.index) :
    (ps.filter fun p => p.index == i) = [] := by
  rw [List.filter_eq_nil_iff]
  intro p hp
  have := h p hp
  simp only [beq_iff_eq]
  omega

/-- Made one after the other, in lines that begin with `above`, insertions with growing numbers put
each text directly before its line. -/
theorem insertAll_numbered_append {above ls : List Line} {ps : List Placement} {i n : Nat}
    (habove : above.length = i + n) (hps : ps.Pairwise fun p q => p.index < q.index)
    (hrange : ∀ p ∈ ps, i ≤ p.index ∧ p.index < i + ls.length) :
    insertAll (above ++ ls) (numbered n ps) = above ++ woven ps i ls := by
  induction ls generalizing above ps i n with
  | nil =>
    have hnil : ps = [] := by
      refine List.eq_nil_iff_forall_not_mem.2 fun p hp => ?_
      have := hrange p hp
      simp only [List.length_nil] at this
      omega
    subst hnil
    rfl
  | cons line ls ih =>
    by_cases hhere : ∃ p qs, ps = p :: qs ∧ p.index = i
    · -- the first text is for this line
      obtain ⟨p, qs, rfl, hp⟩ := hhere
      obtain ⟨hlt, hqs⟩ := List.pairwise_cons.1 hps
      have hbelow : ∀ q ∈ qs, i < q.index := by
        intro q hq
        have := hlt q hq
        omega
      have hinsert : insertAt (p.index + n) p.text (above ++ line :: ls) =
          above ++ [p.text, line] ++ ls := by
        rw [insertAt_append_right (by omega), show p.index + n - above.length = 0 by omega]
        simp [insertAt]
      have hnext : insertAll (above ++ [p.text, line] ++ ls) (numbered (n + 1) qs) =
          above ++ [p.text, line] ++ woven qs (i + 1) ls := by
        refine ih (by simp; omega) hqs fun q hq => ?_
        have := hbelow q hq
        have := (hrange q (List.mem_cons_of_mem _ hq)).2
        rw [List.length_cons] at this
        omega
      have hfilter : ((p :: qs).filter fun q => q.index == i) = [p] := by
        rw [List.filter_cons, hp, beq_self_eq_true, if_pos rfl, filter_index_eq_nil hbelow]
      show insertAll (insertAt (p.index + n) p.text (above ++ line :: ls)) (numbered (n + 1) qs) = _
      rw [hinsert, hnext, woven_cons, hfilter, woven_cons_of_lt (by omega)]
      simp
    · -- no text is for this line
      have hbelow : ∀ p ∈ ps, i < p.index := by
        intro p hp
        cases ps with
        | nil => cases hp
        | cons q qs =>
          have hq : q.index ≠ i := fun hq => hhere ⟨q, qs, rfl, hq⟩
          have hqi := hrange q List.mem_cons_self
          rcases List.mem_cons.1 hp with rfl | hp
          · omega
          · have := (List.pairwise_cons.1 hps).1 p hp
            omega
      have hnext : insertAll (above ++ [line] ++ ls) (numbered n ps) =
          above ++ [line] ++ woven ps (i + 1) ls := by
        refine ih (by simp; omega) hps fun p hp => ?_
        have := hbelow p hp
        have := (hrange p hp).2
        rw [List.length_cons] at this
        omega
      rw [List.append_assoc, List.singleton_append] at hnext
      rw [hnext, woven_cons, filter_index_eq_nil hbelow]
      simp

/-- The insertions of a sweep put each text directly before its line. -/
theorem insertAll_numbered {source : List Line} {ps : List Placement}
    (hps : ps.Pairwise fun p q => p.index < q.index) (hlt : ∀ p ∈ ps, p.index < source.length) :
    insertAll source (numbered 0 ps) = woven ps 0 source := by
  have hrange : ∀ p ∈ ps, 0 ≤ p.index ∧ p.index < 0 + source.length := by
    intro p hp
    have := hlt p hp
    omega
  have habove : ([] : List Line).length = 0 + 0 := rfl
  exact insertAll_numbered_append habove hps hrange

theorem getElem?_numbered {ps : List Placement} {n k : Nat} :
    (numbered n ps)[k]? = ps[k]?.map fun p => ⟨p.index + (n + k), p.text⟩ := by
  induction ps generalizing n k with
  | nil => simp [numbered]
  | cons p ps ih =>
    cases k with
    | zero => simp [numbered]
    | succ k =>
      rw [numbered, List.getElem?_cons_succ, List.getElem?_cons_succ, ih]
      congr 2
      funext p
      congr 1
      omega

/-! ## The insertions of a sweep -/

/-- A placed block, as it stands in the contract lines from number `start` on and before its line of
the source. -/
structure Placement.Stands (source contracts : List Line) (start : Nat) (p : Placement) : Prop where
  header : ∃ h, contracts[start + p.block.start]? = some h ∧ headerOwner? h = some p.block.owner
  attributes : ∀ k < p.block.attributes.length,
    contracts[start + p.block.start + 1 + k]? = p.block.attributes[k]?
  nameLine : contracts[start + p.block.start + 1 + p.block.attributes.length]? = some p.nameLine
  line : source[p.index]? = some p.line
  declaredName_eq : declaredName (strip p.line) = declaredName (strip p.nameLine)

theorem Placement.Fits.stands {source contracts : List Line} {start : Nat} {p : Placement}
    (h : p.Fits (contracts.drop start) source) : p.Stands source contracts start := by
  obtain ⟨header, hheader, howner⟩ := h.standsIn.header
  obtain ⟨below, hbelow⟩ := h.standsIn.attributes_prefix
  have hname := h.nameLine_eq
  rw [List.getElem?_drop] at hheader hname
  rw [List.drop_drop] at hbelow
  refine ⟨⟨header, hheader, howner⟩, fun k hk => ?_, ?_, h.line_eq, h.declaredName_eq⟩
  · rw [← List.getElem?_append_left hk, hbelow, List.getElem?_drop, Nat.add_assoc start]
  · have hnumber : start + p.block.start + 1 + p.block.attributes.length =
        start + (p.stop - 1) := by
      unfold Placement.stop
      omega
    rw [hnumber, hname]

/-- A sweep that has a result has swept the contract lines from its first one on. -/
theorem sweepAt_cases {source contracts : List Line} {start : Int} {s : Sweep} {next : Option Int}
    (h : sweepAt source contracts start = .ok (s, next)) :
    s.found = [] ∨ ∃ view, linesFrom contracts start = .ok view ∧ sweep source view = .ok s := by
  unfold sweepAt at h
  by_cases hempty : source.isEmpty = true
  · rw [if_pos hempty] at h
    exact .inl (congrArg (fun r => r.1.found) (Except.ok.inj h)).symm
  rw [if_neg hempty] at h
  cases hview : linesFrom contracts start with
  | error f =>
    rw [hview] at h
    cases h
  | ok view =>
    cases hsweep : sweep source view with
    | error u =>
      simp only [hview, hsweep] at h
      cases h
    | ok t =>
      simp only [hview, hsweep] at h
      have hst : t = s := congrArg Prod.fst (Except.ok.inj h)
      exact .inr ⟨view, rfl, hst ▸ hsweep⟩

theorem sweep_positions {source view : List Line} {s : Sweep} (h : sweep source view = .ok s) :
    (placed source view).Pairwise (fun p q => p.index < q.index ∧
      p.block.start + 1 + p.block.attributes.length < q.block.start) ∧
    s.found.length = (placed source view).length ∧
    (∀ (k : Nat) (p : Placement), (placed source view)[k]? = some p →
      s.found[k]? = some ⟨p.index + k, indented (indentation p.line) p.block.attributes⟩) ∧
    insertAll source s.found = woven (placed source view) 0 source := by
  have hpair := placed_pairwise h
  have hfound := found_sweep h
  refine ⟨?_, ?_, ?_, ?_⟩
  · refine hpair.imp fun {p q} hpq => ⟨hpq.2, ?_⟩
    have := hpq.1
    unfold Placement.stop at this
    omega
  · rw [hfound, length_numbered]
  · intro k p hp
    rw [hfound, getElem?_numbered, hp, Option.map_some, Nat.zero_add]
    rfl
  · rw [hfound]
    refine insertAll_numbered (hpair.imp And.right) fun p hp => ?_
    exact (List.getElem?_eq_some_iff.1 (placed_fits h hp).line_eq).1

/-- The insertions of a sweep that begins at a line of the contracts are those of blocks of the
contracts from there on, which follow each other and do not overlap, for lines that follow each
other. The `k`-th has its line's number, moved down by `k`, and the block's attributes with the
indentation of the line; made in this order they put each text directly before its line. -/
theorem sweepAt_positions {source contracts : List Line} {start : Int} {s : Sweep}
    {next : Option Int} (hstart : 0 ≤ start)
    (h : sweepAt source contracts start = .ok (s, next)) :
    ∃ ps : List Placement,
      (∀ p ∈ ps, p.Stands source contracts start.toNat) ∧
      ps.Pairwise (fun p q => p.index < q.index ∧
        p.block.start + 1 + p.block.attributes.length < q.block.start) ∧
      s.found.length = ps.length ∧
      (∀ (k : Nat) (p : Placement), ps[k]? = some p →
        s.found[k]? = some ⟨p.index + k, indented (indentation p.line) p.block.attributes⟩) ∧
      insertAll source s.found = woven ps 0 source := by
  obtain hnone | ⟨view, hview, hsweep⟩ := sweepAt_cases h
  · refine ⟨[], by simp, .nil, by rw [hnone]; rfl, by simp, ?_⟩
    have hwoven : insertAll source (numbered 0 []) = woven [] 0 source :=
      insertAll_numbered .nil (by simp)
    rw [hnone]
    exact hwoven
  · rw [linesFrom, if_pos hstart] at hview
    obtain rfl := Except.ok.inj hview
    exact ⟨placed source _, fun p hp => (placed_fits hsweep hp).stands, sweep_positions hsweep⟩

/-- Two blocks, the first of which is the third line. -/
theorem sweepAt_positions_from_third :
    let source := linesOf "fn a() \x7b\x7d\n  fn b() \x7b\x7d\n"
    let contracts := linesOf "old\n\n_None\n#[x]\na\n\n_None\n#[y]\n#[z]\nb\n"
    ∃ s next, sweepAt source contracts 2 = .ok (s, next) ∧
      ∃ ps : List Placement,
        (∀ p ∈ ps, p.Stands source contracts 2) ∧ ps.length = 2 ∧
        woven ps 0 source =
          ["#[x]\n", "fn a() \x7b\x7d\n", "  #[y]\n  #[z]\n", "  fn b() \x7b\x7d\n"].map
            String.toList := by
  intro source contracts
  obtain ⟨⟨s, next⟩, hs, hlines⟩ := exists_of_toOption_any (x := sweepAt source contracts 2)
    (p := fun r => r.1.found.length == 2 && insertAll source r.1.found ==
      ["#[x]\n", "fn a() \x7b\x7d\n", "  #[y]\n  #[z]\n", "  fn b() \x7b\x7d\n"].map String.toList)
    (by decide +kernel)
  obtain ⟨hlength, hlines⟩ := Bool.and_eq_true_iff.1 hlines
  obtain ⟨ps, hstands, -, hlen, -, hwoven⟩ := sweepAt_positions (by decide) hs
  exact ⟨s, next, hs, ps, hstands, hlen.symm.trans (beq_iff_eq.1 hlength),
    hwoven.symm.trans (beq_iff_eq.1 hlines)⟩

/-- Begun at the third line from the end, a sweep places the only block of the contracts twice. No
two blocks of the contracts follow each other. -/
theorem sweepAt_reads_twice :
    let source := linesOf "fn a() \x7b\x7d\nfn a() \x7b\x7d\n"
    let contracts := linesOf "_None\n#[x]\na\n"
    ∃ s next, sweepAt source contracts (-3) = .ok (s, next) ∧
      s.found = [⟨0, "#[x]\n".toList⟩, ⟨2, "#[x]\n".toList⟩] ∧
      ∀ p q : Placement, p.Stands source contracts 0 → q.Stands source contracts 0 →
        ¬ p.block.start + 1 + p.block.attributes.length < q.block.start := by
  intro source contracts
  obtain ⟨⟨s, next⟩, hs, hfound⟩ := exists_of_toOption_any (x := sweepAt source contracts (-3))
    (p := fun r => decide (r.1.found = [⟨0, "#[x]\n".toList⟩, ⟨2, "#[x]\n".toList⟩]))
    (by decide +kernel)
  refine ⟨s, next, hs, of_decide_eq_true hfound, fun p q _ hq hlt => ?_⟩
  -- the name line of the second block would be below the last line
  have hlength : contracts.length = 3 := by decide +kernel
  have hname := (List.getElem?_eq_some_iff.1 hq.nameLine).1
  omega

end Covenant.Merge
