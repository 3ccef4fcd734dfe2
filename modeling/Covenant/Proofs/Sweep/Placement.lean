import Covenant.Proofs.Sweep.Walk

/-!
# The blocks that a sweep places

`placements` lists the blocks that a walk places, each with its source line. They stand in order
both in the contract lines and in the source (`placements_pairwise`), each is where the contract
lines have it (`placements_fits`), and they are all that the walk has found (`found_walk`).

The argument is about the front of a state, the number of the contract line from which nothing has
been placed: a step never moves it back, and placing a block moves it past the block.
-/

namespace Covenant.Merge

open Text Header Contracts

/-- The blocks that are placed on the way down the lines from number `i`. -/
def placements : List Line → Nat → Walk → List Placement
  | [], _, _ => []
  | line :: rest, i, w =>
    (w.placed? i line).toList ++
      match w.step i line with
      | .ok w => placements rest (i + 1) w
      | .error _ => []

/-- The insertions of placed blocks after `n` others: each moves down by those before it. -/
def numbered : Nat → List Placement → List Insertion
  | _, [] => []
  | n, p :: ps => ⟨p.index + n, p.text⟩ :: numbered (n + 1) ps

theorem placements_cons {line : Line} {w v : Walk} {i : Nat} (h : w.step i line = .ok v)
    (rest : List Line) :
    placements (line :: rest) i w = (w.placed? i line).toList ++ placements rest (i + 1) v := by
  rw [placements, h]

@[simp] theorem length_numbered (n : Nat) (ps : List Placement) :
    (numbered n ps).length = ps.length := by
  induction ps generalizing n with
  | nil => rfl
  | cons p ps ih => simp [numbered, ih]

theorem numbered_append (n : Nat) (ps qs : List Placement) :
    numbered n (ps ++ qs) = numbered n ps ++ numbered (n + ps.length) qs := by
  induction ps generalizing n with
  | nil => rfl
  | cons p ps ih =>
    rw [List.cons_append, numbered, numbered, ih, List.length_cons,
      show n + 1 + ps.length = n + (ps.length + 1) by omega, List.cons_append]

/-! ## What a step places -/

theorem step_of_placed? {w w' : Walk} {i : Nat} {line : Line} {p : Placement}
    (h : w.step i line = .ok w') (hp : w.placed? i line = some p) :
    ∃ s, w.ready = .ok s ∧ s.placed? i line = some p ∧ w' = ⟨.free, s.compare i line⟩ := by
  obtain ⟨s, hs, rfl⟩ := step_eq_ok_iff.1 h
  rw [Walk.placed?, hs] at hp
  by_cases ha : w.action s line = .compare
  · simp only [ha, if_true] at hp
    exact ⟨s, hs, hp, by rw [ha, State.perform]⟩
  · simp [ha] at hp

/-- A step that places nothing leaves what is looked for as it was when the line was met. -/
theorem step_of_not_placed? {w w' : Walk} {i : Nat} {line : Line}
    (h : w.step i line = .ok w') (hp : w.placed? i line = none) :
    ∃ s, w.ready = .ok s ∧ w'.state.block = s.block ∧ w'.state.unread = s.unread ∧
      w'.state.read = s.read ∧ w'.state.found = s.found := by
  obtain ⟨s, hs, rfl⟩ := step_eq_ok_iff.1 h
  refine ⟨s, hs, ?_⟩
  by_cases ha : w.action s line = .compare
  · have hn : s.placed? i line = none := by simpa [Walk.placed?, hs, ha] using hp
    simp [ha, State.perform, compare_of_placed?_eq_none hn]
  · exact perform_frame ha

theorem found_step {w w' : Walk} {i : Nat} {line : Line} (h : w.step i line = .ok w') :
    w'.state.found =
      w.state.found ++ numbered w.state.found.length (w.placed? i line).toList := by
  cases hp : w.placed? i line with
  | none =>
    obtain ⟨s, hs, -, -, -, hf⟩ := step_of_not_placed? h hp
    rw [hf, (ready_frame hs).2.1]
    simp [numbered]
  | some p =>
    obtain ⟨s, hs, hsp, rfl⟩ := step_of_placed? h hp
    obtain ⟨rest, -, -, -, -, hi, -, hc⟩ := placed?_eq_some hsp
    simp [hc, (ready_frame hs).2.1, numbered, hi]

/-- A walk finds what it places. -/
theorem found_walk {ls : List Line} {i : Nat} {w w' : Walk} (h : walk ls i w = .ok w') :
    w'.state.found =
      w.state.found ++ numbered w.state.found.length (placements ls i w) := by
  induction ls generalizing i w with
  | nil =>
    obtain rfl := Except.ok.inj h
    simp [placements, numbered]
  | cons line rest ih =>
    obtain ⟨v, hv, hr⟩ := walk_cons_eq_ok_iff.1 h
    rw [ih hr, placements_cons hv, numbered_append, found_step hv]
    simp

/-! ## Where the blocks stand in the contract lines -/

/-- The block stands in the contract lines as it was read. -/
structure StandsIn (contracts : List Line) (b : Block) : Prop where
  header : ∃ h, contracts[b.start]? = some h ∧ headerOwner? h = some b.owner
  attributes_prefix : b.attributes <+: contracts.drop (b.start + 1)
  isAttribute_attributes : ∀ a ∈ b.attributes, isAttribute a = true

/-- What a state has read and not read are the two parts of the contract lines. -/
structure State.Reads (contracts : List Line) (s : State) : Prop where
  unread_eq : s.unread = contracts.drop s.read
  block_standsIn : ∀ b, s.block = some b → StandsIn contracts b
  read_eq : ∀ b, s.block = some b → s.read = b.start + b.attributes.length + 1
  not_isAttribute : ∀ b, s.block = some b → ∀ l ∈ s.unread.head?, isAttribute l = false

/-- The number of the contract line from which nothing has been placed. -/
def State.front (s : State) : Nat :=
  match s.block with
  | some b => b.start
  | none => s.read

/-- The number of the contract line after the one that names the function. -/
def Placement.stop (p : Placement) : Nat := p.block.start + p.block.attributes.length + 2

theorem drop_length_takeWhile {α : Type} (p : α → Bool) (l : List α) :
    l.drop (l.takeWhile p).length = l.dropWhile p := by
  induction l with
  | nil => rfl
  | cons a l ih => by_cases h : p a <;> simp [h, ih]

theorem State.Reads.congr {contracts : List Line} {s t : State} (h : s.Reads contracts)
    (hb : t.block = s.block) (hu : t.unread = s.unread) (hr : t.read = s.read) :
    t.Reads contracts where
  unread_eq := by rw [hu, hr, h.unread_eq]
  block_standsIn b hb' := h.block_standsIn b (hb ▸ hb')
  read_eq b hb' := hr ▸ h.read_eq b (hb ▸ hb')
  not_isAttribute b hb' := hu ▸ h.not_isAttribute b (hb ▸ hb')

theorem State.front_congr {s t : State} (hb : t.block = s.block) (hr : t.read = s.read) :
    t.front = s.front := by
  rw [State.front, State.front, hb, hr]

theorem start_reads (contracts : List Line) : (State.start contracts).Reads contracts where
  unread_eq := rfl
  block_standsIn _ hb := nomatch hb
  read_eq _ hb := nomatch hb
  not_isAttribute _ hb := nomatch hb

theorem withBlock_reads {contracts : List Line} {s t : State} (hs : s.Reads contracts)
    (h : s.withBlock = .ok t) : t.Reads contracts ∧ s.front ≤ t.front := by
  obtain ⟨rfl, -⟩ | ⟨header, rest, owner, -, hu, ho, rfl⟩ := withBlock_cases h
  · exact ⟨hs, Nat.le_refl _⟩
  have hd : contracts.drop s.read = header :: rest := hs.unread_eq ▸ hu
  have hrest : contracts.drop (s.read + 1) = rest := by
    rw [← List.drop_drop, hd, List.drop_one, List.tail_cons]
  refine ⟨⟨?_, ?_, ?_, ?_⟩, ?_⟩
  · show rest.dropWhile isAttribute = _
    rw [← drop_length_takeWhile, ← hrest, List.drop_drop]
  · rintro b hb
    obtain rfl := Option.some.inj hb
    refine ⟨⟨header, ?_, ho⟩, ?_, fun a ha => ?_⟩
    · rw [← List.head?_drop, hd, List.head?_cons]
    · show rest.takeWhile isAttribute <+: contracts.drop (s.read + 1)
      rw [hrest]
      exact List.takeWhile_prefix _
    · exact List.all_eq_true.1 List.all_takeWhile a ha
  · rintro b hb
    obtain rfl := Option.some.inj hb
    exact Nat.add_right_comm _ _ _
  · intro b _ l hl
    have hhead := List.head?_dropWhile_not isAttribute rest
    rwa [hl] at hhead
  · -- the new block starts where reading had got to
    show s.front ≤ s.read
    unfold State.front
    split
    · next b hb =>
      have := hs.read_eq b hb
      omega
    · exact Nat.le_refl _

theorem ready_reads {contracts : List Line} {w : Walk} {s : State}
    (hw : w.state.Reads contracts) (h : w.ready = .ok s) :
    s.Reads contracts ∧ w.state.front ≤ s.front := by
  obtain ⟨-, h⟩ | ⟨-, rfl⟩ := ready_cases h
  · exact withBlock_reads hw h
  · exact ⟨hw, Nat.le_refl _⟩

/-- A placed block starts at the front, and the front moves past it. -/
theorem compare_reads {contracts : List Line} {s : State} {i : Nat} {line : Line} {p : Placement}
    (hs : s.Reads contracts) (hp : s.placed? i line = some p) :
    (s.compare i line).Reads contracts ∧ s.front = p.block.start ∧
      p.stop ≤ (s.compare i line).front ∧ StandsIn contracts p.block ∧
      contracts[p.stop - 1]? = some p.nameLine ∧ isAttribute p.nameLine = false := by
  obtain ⟨rest, hb, hu, -, -, -, -, hc⟩ := placed?_eq_some hp
  have hread := hs.read_eq _ hb
  have hd : contracts.drop s.read = p.nameLine :: rest := hs.unread_eq ▸ hu
  have hrest : contracts.drop (s.read + 1) = rest := by
    rw [← List.drop_drop, hd, List.drop_one, List.tail_cons]
  rw [hc]
  refine ⟨⟨?_, nofun, nofun, nofun⟩, by rw [State.front, hb], ?_, hs.block_standsIn _ hb, ?_,
    hs.not_isAttribute _ hb _ (by rw [hu]; rfl)⟩
  · show rest.dropWhile isBlankLine = _
    rw [← drop_length_takeWhile, ← hrest, List.drop_drop]
  · show p.stop ≤ s.read + 1 + _
    unfold Placement.stop
    omega
  · rw [show p.stop - 1 = s.read by unfold Placement.stop; omega, ← List.head?_drop, hd,
      List.head?_cons]

/-! ## What a walk places -/

/-- The placed block stands in the contract lines, and its function is declared by a line of the
source. -/
structure Placement.Fits (contracts source : List Line) (p : Placement) : Prop where
  standsIn : StandsIn contracts p.block
  nameLine_eq : contracts[p.stop - 1]? = some p.nameLine
  not_isAttribute_nameLine : isAttribute p.nameLine = false
  line_eq : source[p.index]? = some p.line
  declaredName_eq : declaredName (strip p.line) = declaredName (strip p.nameLine)

/-- The lines of a placed block follow each other in the contract lines. -/
theorem Placement.Fits.split {contracts source : List Line} {start : Nat} {p : Placement}
    (h : p.Fits (contracts.drop start) source) :
    ∃ above header below, contracts = above ++ header :: p.block.attributes ++ p.nameLine :: below ∧
      above.length = start + p.block.start := by
  obtain ⟨⟨header, hheader, -⟩, ⟨t, ht⟩, -⟩ := h.standsIn
  rw [List.getElem?_drop] at hheader
  rw [List.drop_drop] at ht
  have hlt := (List.getElem?_eq_some_iff.1 hheader).1
  have hstop : p.stop - 1 = p.block.start + 1 + p.block.attributes.length := by
    unfold Placement.stop
    omega
  -- the name follows the attributes
  have hname : (p.block.attributes ++ t)[p.block.attributes.length]? = some p.nameLine := by
    rw [ht, List.getElem?_drop, ← h.nameLine_eq, List.getElem?_drop, hstop]
    congr 1
    omega
  rw [List.getElem?_append_right (Nat.le_refl _), Nat.sub_self] at hname
  obtain ⟨below, rfl⟩ := List.head?_eq_some_iff.1 (List.head?_eq_getElem? ▸ hname)
  have hdrop : contracts.drop (start + p.block.start) =
      header :: contracts.drop (start + p.block.start + 1) := by
    rw [List.drop_eq_getElem_cons hlt]
    congr 1
    exact (List.getElem?_eq_some_iff.1 hheader).2
  rw [Nat.add_assoc, ← ht] at hdrop
  refine ⟨contracts.take (start + p.block.start), header, below, ?_, ?_⟩
  · conv => lhs; rw [← List.take_append_drop (start + p.block.start) contracts, hdrop]
    simp
  · rw [List.length_take, Nat.min_eq_left (Nat.le_of_lt hlt)]

theorem step_reads {contracts : List Line} {w w' : Walk} {i : Nat} {line : Line}
    (hw : w.state.Reads contracts) (h : w.step i line = .ok w') :
    w'.state.Reads contracts ∧ w.state.front ≤ w'.state.front := by
  cases hp : w.placed? i line with
  | none =>
    obtain ⟨s, hs, hb, hu, hr, -⟩ := step_of_not_placed? h hp
    obtain ⟨hsr, hle⟩ := ready_reads hw hs
    exact ⟨hsr.congr hb hu hr, State.front_congr hb hr ▸ hle⟩
  | some p =>
    obtain ⟨s, hs, hsp, rfl⟩ := step_of_placed? h hp
    obtain ⟨hsr, hle⟩ := ready_reads hw hs
    obtain ⟨hc, hf, hstop, -⟩ := compare_reads hsr hsp
    refine ⟨hc, ?_⟩
    unfold Placement.stop at hstop
    show _ ≤ (s.compare i line).front
    omega

/-- A step places a block between the old and the new front. -/
theorem step_places {contracts : List Line} {w w' : Walk} {i : Nat} {line : Line} {p : Placement}
    (hw : w.state.Reads contracts) (h : w.step i line = .ok w')
    (hp : w.placed? i line = some p) :
    p.index = i ∧ w.state.front ≤ p.block.start ∧ p.stop ≤ w'.state.front ∧
      ∀ source : List Line, source[i]? = some line → p.Fits contracts source := by
  obtain ⟨s, hs, hsp, rfl⟩ := step_of_placed? h hp
  obtain ⟨hsr, hle⟩ := ready_reads hw hs
  obtain ⟨-, hf, hstop, hst, hn, hna⟩ := compare_reads hsr hsp
  obtain ⟨-, -, -, -, hd, hi, hl, -⟩ := placed?_eq_some hsp
  refine ⟨hi, hf ▸ hle, hstop, fun source hsrc => ⟨hst, hn, hna, ?_, ?_⟩⟩
  · rw [hi, hl, hsrc]
  · rw [hl, hd]

theorem walk_reads {contracts ls : List Line} {i : Nat} {w w' : Walk}
    (hw : w.state.Reads contracts) (h : walk ls i w = .ok w') :
    w'.state.Reads contracts ∧ w.state.front ≤ w'.state.front := by
  refine walk_induction (P := fun _ v => v.state.Reads contracts ∧ w.state.front ≤ v.state.front)
    (fun j v v' line hv hj => ?_) h ⟨hw, Nat.le_refl _⟩
  obtain ⟨hr, hle⟩ := step_reads hv.1 hj
  exact ⟨hr, Nat.le_trans hv.2 hle⟩

/-- Every block that a walk places fits, and was placed between the old and the new front. -/
theorem mem_placements {contracts ls : List Line} (source : List Line) {i : Nat} {w w' : Walk}
    {p : Placement} (hw : w.state.Reads contracts) (h : walk ls i w = .ok w')
    (hsrc : source.drop i = ls) (hp : p ∈ placements ls i w) :
    i ≤ p.index ∧ w.state.front ≤ p.block.start ∧ p.stop ≤ w'.state.front ∧
      p.Fits contracts source := by
  induction ls generalizing i w with
  | nil => cases hp
  | cons line rest ih =>
    obtain ⟨v, hv, hr⟩ := walk_cons_eq_ok_iff.1 h
    obtain ⟨hvr, hwv⟩ := step_reads hw hv
    rw [placements_cons hv, List.mem_append, Option.mem_toList] at hp
    rcases hp with hp | hp
    · obtain ⟨hi, hf, hs, hfit⟩ := step_places hw hv hp
      have hvw := (walk_reads hvr hr).2
      have hline : source[i]? = some line := by rw [← List.head?_drop, hsrc, List.head?_cons]
      exact ⟨by omega, hf, by omega, hfit source hline⟩
    · have hrest : source.drop (i + 1) = rest := by
        rw [← List.drop_drop, hsrc, List.drop_one, List.tail_cons]
      obtain ⟨hi, hf, hs, hfit⟩ := ih hvr hr hrest hp
      exact ⟨by omega, by omega, hs, hfit⟩

/-- The blocks that a walk places follow each other in the contract lines and in the source. -/
theorem placements_pairwise {contracts ls : List Line} {i : Nat} {w w' : Walk}
    (hw : w.state.Reads contracts) (h : walk ls i w = .ok w') :
    (placements ls i w).Pairwise fun p q => p.stop ≤ q.block.start ∧ p.index < q.index := by
  induction ls generalizing i w with
  | nil => exact List.Pairwise.nil
  | cons line rest ih =>
    obtain ⟨v, hv, hr⟩ := walk_cons_eq_ok_iff.1 h
    obtain ⟨hvr, -⟩ := step_reads hw hv
    rw [placements_cons hv, List.pairwise_append]
    refine ⟨?_, ih hvr hr, fun p hp q hq => ?_⟩
    · cases w.placed? i line <;> simp
    · obtain ⟨hi, -, hs, -⟩ := step_places hw hv (Option.mem_toList.1 hp)
      -- any source that goes on with `rest` will do for the place of `q`
      obtain ⟨hj, hf, -, -⟩ := mem_placements (List.replicate (i + 1) [] ++ rest) hvr hr
        (List.drop_left' (List.length_replicate ..)) hq
      exact ⟨by omega, by omega⟩

/-! ## What a sweep places -/

/-- The blocks that a sweep places. -/
def placed (source contracts : List Line) : List Placement :=
  placements source 0 ⟨.free, State.start contracts⟩

theorem sweep_cases {source contracts : List Line} {s : Sweep}
    (h : sweep source contracts = .ok s) :
    (source = [] ∨ contracts = []) ∧ s = ⟨[], none, none, .everything⟩ ∨
      source ≠ [] ∧ contracts ≠ [] ∧
        ∃ w, walk source 0 ⟨.free, State.start contracts⟩ = .ok w ∧
          s = ⟨w.state.found, w.state.importLine, w.state.attributeBeforeImport,
            w.state.remaining⟩ := by
  unfold sweep at h
  split at h
  · next he => exact .inl ⟨by simpa using he, (Except.ok.inj h).symm⟩
  · next he =>
    rw [Bool.or_eq_true, not_or, List.isEmpty_iff, List.isEmpty_iff] at he
    cases hw : walk source 0 ⟨.free, State.start contracts⟩ with
    | error e => simp [hw, Except.map] at h
    | ok w =>
      simp only [hw, Except.map, Except.ok.injEq] at h
      exact .inr ⟨he.1, he.2, w, rfl, h.symm⟩

theorem step_of_unread_nil {s : State} (h : s.unread = []) (i : Nat) (line : Line) :
    Walk.step ⟨.free, s⟩ i line = .ok ⟨.free, s⟩ ∧ Walk.placed? ⟨.free, s⟩ i line = none := by
  simp [Walk.step, Walk.placed?, Walk.ready, Walk.action, withBlock_of_unread_nil h, h, Except.map,
    State.perform]

theorem placed_nil_right (source : List Line) : placed source [] = [] := by
  have key : ∀ (ls : List Line) (i : Nat), placements ls i ⟨.free, State.start []⟩ = [] := by
    intro ls
    induction ls with
    | nil => intro i; rfl
    | cons line rest ih =>
      intro i
      obtain ⟨hs, hp⟩ := step_of_unread_nil (s := State.start []) rfl i line
      rw [placements_cons hs, hp, ih, Option.toList_none, List.append_nil]
  exact key source 0

/-- A sweep finds the blocks that it places. -/
theorem found_sweep {source contracts : List Line} {s : Sweep}
    (h : sweep source contracts = .ok s) : s.found = numbered 0 (placed source contracts) := by
  obtain ⟨rfl | rfl, rfl⟩ | ⟨-, -, w, hw, rfl⟩ := sweep_cases h
  · rfl
  · rw [placed_nil_right, numbered]
  · rw [found_walk hw]
    rfl

theorem placed_fits {source contracts : List Line} {s : Sweep}
    (h : sweep source contracts = .ok s) {p : Placement} (hp : p ∈ placed source contracts) :
    p.Fits contracts source := by
  obtain ⟨rfl | rfl, rfl⟩ | ⟨-, -, w, hw, rfl⟩ := sweep_cases h
  · cases hp
  · rw [placed_nil_right] at hp
    cases hp
  · exact (mem_placements source (start_reads contracts) hw rfl hp).2.2.2

theorem placed_pairwise {source contracts : List Line} {s : Sweep}
    (h : sweep source contracts = .ok s) :
    (placed source contracts).Pairwise fun p q => p.stop ≤ q.block.start ∧ p.index < q.index := by
  obtain ⟨rfl | rfl, rfl⟩ | ⟨-, -, w, hw, rfl⟩ := sweep_cases h
  · exact List.Pairwise.nil
  · rw [placed_nil_right]
    exact List.Pairwise.nil
  · exact placements_pairwise (start_reads contracts) hw

/-- What a sweep places stands before the block at which it stopped. -/
theorem stop_le_of_remaining {source contracts : List Line} {s : Sweep} {k : Nat}
    (h : sweep source contracts = .ok s) (hk : s.remaining = .block k) :
    k < contracts.length ∧ ∀ p ∈ placed source contracts, p.stop ≤ k := by
  obtain ⟨-, rfl⟩ | ⟨-, -, w, hw, rfl⟩ := sweep_cases h
  · cases hk
  · cases hb : w.state.block with
    | none => simp [State.remaining, hb] at hk
    | some b =>
      have hbk : b.start = k := by simpa [State.remaining, hb] using hk
      obtain ⟨hr, -⟩ := walk_reads (start_reads contracts) hw
      refine ⟨?_, fun p hp => ?_⟩
      · obtain ⟨header, hh, -⟩ := (hr.block_standsIn b hb).header
        exact hbk ▸ (List.getElem?_eq_some_iff.1 hh).1
      · have hf : w.state.front = k := by rw [State.front, hb]; exact hbk
        exact hf ▸ (mem_placements source (start_reads contracts) hw rfl hp).2.2.1

/-- A sweep that had nothing to begin with places nothing. -/
theorem placed_of_everything {source contracts : List Line} {s : Sweep}
    (h : sweep source contracts = .ok s) (hk : s.remaining = .everything) :
    placed source contracts = [] := by
  obtain ⟨rfl | rfl, rfl⟩ | ⟨-, -, w, hw, rfl⟩ := sweep_cases h
  · rfl
  · exact placed_nil_right source
  · cases hb : w.state.block <;> simp [State.remaining, hb] at hk

end Covenant.Merge
