import Covenant.Proofs.Sweep.Placement

/-!
# Contract lines followed by more

A walk with more contract lines behind goes in step with the walk without them, up to the source
line at which the first lines are used up (`walk_extend`). From there on the shorter walk places
nothing, and the longer one is `Beyond` it: what it places is named in the lines behind.
-/

namespace Covenant.Merge

open Text Header Contracts

/-! ## States with more to read -/

/-- The state with more contract lines behind those that have not been read. -/
def State.extend (s : State) (more : List Line) : State := { s with unread := s.unread ++ more }

/-- The walk with more contract lines behind. -/
def Walk.extend (w : Walk) (more : List Line) : Walk := ⟨w.mode, w.state.extend more⟩

/-- The lines begin with one that is not blank. -/
def Starts (more : List Line) : Prop := ∃ line rest, more = line :: rest ∧ isBlankLine line = false

section Lines

variable {α : Type} {p : α → Bool} {a b : List α}

theorem takeWhile_append_of_dropWhile_ne_nil (h : a.dropWhile p ≠ []) :
    (a ++ b).takeWhile p = a.takeWhile p ∧ (a ++ b).dropWhile p = a.dropWhile p ++ b := by
  induction a with
  | nil => exact absurd rfl h
  | cons x a ih =>
    by_cases hx : p x
    · simp only [List.dropWhile_cons, hx, if_true] at h
      simp [hx, ih h]
    · simp [hx]

theorem takeWhile_append_of_dropWhile_eq_nil (h : a.dropWhile p = []) :
    a.takeWhile p = a ∧ (a ++ b).takeWhile p = a ++ b.takeWhile p ∧
      (a ++ b).dropWhile p = b.dropWhile p := by
  have hself : a.takeWhile p = a := by
    have := List.takeWhile_append_dropWhile (p := p) (l := a)
    rwa [h, List.append_nil] at this
  have hall : ∀ x ∈ a, p x = true := fun x hx =>
    List.all_eq_true.1 List.all_takeWhile x (hself.symm ▸ hx)
  exact ⟨hself, List.takeWhile_append_of_pos hall, List.dropWhile_append_of_pos hall⟩

end Lines

/-- Blank lines are not taken from lines that begin with another. -/
theorem Starts.append {more : List Line} (h : Starts more) (ls : List Line) :
    (ls ++ more).takeWhile isBlankLine = ls.takeWhile isBlankLine ∧
      (ls ++ more).dropWhile isBlankLine = ls.dropWhile isBlankLine ++ more := by
  by_cases hls : ls.dropWhile isBlankLine = []
  · obtain ⟨hself, htake, hdrop⟩ := takeWhile_append_of_dropWhile_eq_nil (b := more) hls
    obtain ⟨line, rest, rfl, hline⟩ := h
    rw [htake, hdrop, hself, hls]
    simp [hline]
  · exact takeWhile_append_of_dropWhile_ne_nil hls

section Step

variable {more : List Line} {s t : State} {w v : Walk} {i : Nat} {line : Line}

/-! ## In step -/

theorem withBlock_extend (h : s.withBlock = .ok t) (ht : t.unread ≠ []) :
    (s.extend more).withBlock = .ok (t.extend more) := by
  obtain ⟨rfl, hw | hu⟩ | ⟨header, rest, owner, hw, hu, ho, rfl⟩ := withBlock_cases h
  · exact withBlock_of_not_wantsBlock hw
  · exact absurd hu ht
  · obtain ⟨htake, hdrop⟩ := takeWhile_append_of_dropWhile_ne_nil (b := more) ht
    have hu' : (s.extend more).unread = header :: (rest ++ more) := by
      rw [State.extend, hu, List.cons_append]
    have hw' : (s.extend more).wantsBlock = true := hw
    rw [withBlock_of_header hw' hu' ho, htake, hdrop]
    rfl

theorem ready_extend (h : w.ready = .ok s) (hs : s.unread ≠ []) :
    (w.extend more).ready = .ok (s.extend more) := by
  obtain ⟨mode, state⟩ := w
  cases mode with
  | free => exact withBlock_extend (s := state) h hs
  | slot | second =>
    obtain rfl : state = s := Except.ok.inj h
    rfl

theorem unread_ne_nil_of_ready (h : w.ready = .ok s) (hs : s.unread ≠ []) :
    w.state.unread ≠ [] := by
  intro hu
  obtain ⟨-, h⟩ | ⟨-, rfl⟩ := ready_cases h
  · rw [withBlock_of_unread_nil hu] at h
    exact hs (Except.ok.inj h ▸ hu)
  · exact hs hu

/-- The same is done with a line, as long as something is left to read. -/
theorem action_extend (h : w.state.unread ≠ []) (hscopes : t.scopes = s.scopes)
    (himport : t.importLine = s.importLine) (hattr : t.attributeLine = s.attributeLine) :
    (w.extend more).action t line = w.action s line := by
  obtain ⟨mode, state⟩ := w
  have hstate : state.unread.isEmpty = false := by simpa using h
  have hmore : (state.unread ++ more).isEmpty = false := by
    rw [List.isEmpty_eq_false_iff] at hstate ⊢
    simp [hstate]
  have hlook : t.look line = s.look line := by
    simp [State.look, State.scope, hscopes, himport, hattr]
  cases mode with
  | free => simp [Walk.action, Walk.extend, State.extend, hmore, hstate, hlook]
  | slot | second => rfl

theorem placed?_extend (h : s.unread ≠ []) :
    (s.extend more).placed? i line = s.placed? i line := by
  obtain ⟨nameLine, rest, hu⟩ := List.exists_cons_of_ne_nil h
  cases hb : s.block with
  | none => simp [State.placed?, State.extend, hb]
  | some b =>
    have hag : (s.extend more).agrees b nameLine line = s.agrees b nameLine line := rfl
    have hb' : (s.extend more).block = some b := hb
    have hu' : (s.extend more).unread = nameLine :: (rest ++ more) := by
      rw [State.extend, hu, List.cons_append]
    simp only [State.placed?, hb, hu, hb', hu', hag]

theorem compare_extend (hmore : Starts more) (h : s.unread ≠ []) :
    (s.extend more).compare i line = (s.compare i line).extend more := by
  cases hp : s.placed? i line with
  | none =>
    rw [compare_of_placed?_eq_none hp, compare_of_placed?_eq_none ((placed?_extend h).trans hp)]
  | some p =>
    obtain ⟨rest, -, hu, -, -, -, -, hc⟩ := placed?_eq_some hp
    obtain ⟨rest', -, hu', -, -, -, -, hc'⟩ := placed?_eq_some ((placed?_extend h).trans hp)
    obtain rfl : rest' = rest ++ more := by
      rw [State.extend, hu, List.cons_append] at hu'
      exact (List.cons.inj hu').2.symm
    obtain ⟨htake, hdrop⟩ := hmore.append rest
    rw [hc, hc', htake, hdrop]
    rfl

theorem perform_extend (hmore : Starts more) (h : s.unread ≠ []) (a : Action) :
    (s.extend more).perform i line a = (s.perform i line a).extend more := by
  cases a with
  | compare => simp only [State.perform, compare_extend hmore h, Walk.extend]
  | enter owner =>
    simp only [State.perform, Walk.extend, State.enter]
    split <;> rfl
  | idle | await | leave | noteImport | noteAttribute => rfl

/-- A step at which something is left to read when the line is met. -/
theorem step_extend (hmore : Starts more) (hs : w.ready = .ok s) (hne : s.unread ≠ [])
    (h : w.step i line = .ok v) :
    (w.extend more).step i line = .ok (v.extend more) ∧
      (w.extend more).placed? i line = w.placed? i line := by
  obtain ⟨s', hs', rfl⟩ := step_eq_ok_iff.1 h
  obtain rfl := Except.ok.inj (hs.symm.trans hs')
  have hready : (w.extend more).ready = .ok (s.extend more) := ready_extend hs hne
  have haction : (w.extend more).action (s.extend more) line = w.action s line :=
    action_extend (unread_ne_nil_of_ready hs hne) rfl rfl rfl
  refine ⟨step_eq_ok_iff.2 ⟨_, hready, ?_⟩, ?_⟩
  · rw [haction, perform_extend hmore hne]
  · rw [Walk.placed?, Walk.placed?, hready, hs]
    simp only [haction, placed?_extend hne]

/-- A step is stopped by a header that names no owner, and by nothing else. -/
theorem step_eq_error_iff {e : Unreadable} :
    w.step i line = .error e ↔ w.mode = .free ∧ w.state.wantsBlock = true ∧ e = ⟨w.state.found⟩ ∧
      ∃ header rest, w.state.unread = header :: rest ∧ headerOwner? header = none := by
  obtain ⟨mode, s⟩ := w
  cases mode with
  | slot | second => simp [Walk.step, Walk.ready, Except.map]
  | free =>
    have hstep : Walk.step ⟨.free, s⟩ i line = .error e ↔ s.withBlock = .error e := by
      rw [Walk.step, Walk.ready]
      cases s.withBlock with
      | error e' => simp [Except.map]
      | ok t => simp [Except.map]
    rw [hstep]
    cases hw : s.wantsBlock with
    | false => simp [withBlock_of_not_wantsBlock hw]
    | true =>
      rw [State.withBlock, if_pos hw, State.readBlock]
      cases hu : s.unread with
      | nil => simp
      | cons header rest =>
        cases ho : headerOwner? header with
        | none => simp [ho, eq_comm]
        | some owner => simp [ho]

theorem step_extend_error {e : Unreadable} (h : w.step i line = .error e) :
    (w.extend more).step i line = .error e := by
  obtain ⟨hm, hw, he, header, rest, hu, ho⟩ := step_eq_error_iff.1 h
  refine step_eq_error_iff.2 ⟨hm, hw, he, header, rest ++ more, ?_, ho⟩
  rw [Walk.extend, State.extend, hu, List.cons_append]

/-! ## Used up -/

/-- Without contract lines to read a step changes nothing of what is looked for or found. -/
theorem step_of_ready_used_up (hs : w.ready = .ok s) (hu : s.unread = [])
    (h : w.step i line = .ok v) :
    w.placed? i line = none ∧ v.state.unread = [] ∧ v.state.block = s.block ∧
      v.state.read = s.read ∧ v.state.found = s.found := by
  have hplaced : w.placed? i line = none := by
    rw [Walk.placed?, hs]
    cases hb : s.block <;> simp [State.placed?, hu, hb]
  obtain ⟨s', hs', hvb, hvu, hvr, hvf⟩ := step_of_not_placed? h hplaced
  obtain rfl := Except.ok.inj (hs.symm.trans hs')
  exact ⟨hplaced, hvu.trans hu, hvb, hvr, hvf⟩

theorem ready_of_used_up (h : w.state.unread = []) : w.ready = .ok w.state := by
  obtain ⟨mode, s⟩ := w
  cases mode with
  | free => exact withBlock_of_unread_nil h
  | slot | second => rfl

theorem walk_of_used_up (ls : List Line) (i : Nat) {w : Walk} (h : w.state.unread = []) :
    ∃ v, walk ls i w = .ok v ∧ placements ls i w = [] ∧ v.state.unread = [] ∧
      v.state.block = w.state.block ∧ v.state.read = w.state.read ∧
      v.state.found = w.state.found := by
  induction ls generalizing i w with
  | nil => exact ⟨w, rfl, rfl, h, rfl, rfl, rfl⟩
  | cons line rest ih =>
    have hready := ready_of_used_up h
    have hstep : w.step i line = .ok _ := step_eq_ok_iff.2 ⟨w.state, hready, rfl⟩
    obtain ⟨hplaced, hu, hb, hr, hf⟩ := step_of_ready_used_up hready h hstep
    obtain ⟨v, hwalk, hps, hv, hvb, hvr, hvf⟩ := ih (i + 1) hu
    refine ⟨v, walk_cons_eq_ok_iff.2 ⟨_, hstep, hwalk⟩, ?_, hv, hvb.trans hb, hvr.trans hr,
      hvf.trans hf⟩
    rw [placements_cons hstep, hplaced, hps]
    rfl

end Step

/-! ## Beyond the first lines -/

/-- All of the first `n` contract lines have been read in `t`, and `s` is a state with no others to
read. What `t` looks for stands behind them, or it is still the last block of `s`. -/
structure State.Beyond (n : Nat) (s t : State) : Prop where
  read_le : n ≤ t.read
  front : n ≤ t.front ∨ t.front = s.front ∧ t.found = s.found ∧ s.block ≠ none ∧ t.block ≠ none

section Beyond

variable {contracts more : List Line} {n : Nat} {s s' t t' : State} {w v : Walk} {i : Nat}
  {line : Line}

theorem State.Beyond.congr_left (h : s.Beyond n t) (hb : s'.block = s.block)
    (hr : s'.read = s.read) (hf : s'.found = s.found) : s'.Beyond n t where
  read_le := h.read_le
  front := by
    rw [State.front_congr hb hr, hf, hb]
    exact h.front

theorem State.Beyond.congr_right (h : s.Beyond n t) (hb : t'.block = t.block)
    (hr : t'.read = t.read) (hf : t'.found = t.found) : s.Beyond n t' where
  read_le := hr ▸ h.read_le
  front := by
    rw [State.front_congr hb hr, hf, hb]
    exact h.front

/-- Where the first lines are used up, the longer state is beyond them. -/
theorem beyond_extend (more : List Line) (hs : s.Reads contracts) (hu : s.unread = []) :
    s.Beyond contracts.length (s.extend more) := by
  have hread : contracts.length ≤ s.read := List.drop_eq_nil_iff.1 (hs.unread_eq.symm.trans hu)
  refine ⟨hread, ?_⟩
  cases hb : s.block with
  | none =>
    left
    show contracts.length ≤ State.front _
    simpa [State.front, State.extend, hb] using hread
  | some b =>
    right
    exact ⟨rfl, rfl, by simp, by simp [State.extend, hb]⟩

/-- The first lines end within the attributes of a block: the longer state has more of them. -/
theorem withBlock_beyond_of_used_up (more : List Line) (hs : s.Reads contracts)
    (hne : s.unread ≠ []) (h : s.withBlock = .ok t) (hu : t.unread = []) :
    ∃ t', (s.extend more).withBlock = .ok t' ∧ t.Beyond contracts.length t' := by
  obtain ⟨rfl, -⟩ | ⟨header, rest, owner, hw, hheader, ho, rfl⟩ := withBlock_cases h
  · exact absurd hu hne
  obtain ⟨hself, htake, -⟩ := takeWhile_append_of_dropWhile_eq_nil (b := more) hu
  have hw' : (s.extend more).wantsBlock = true := hw
  have hheader' : (s.extend more).unread = header :: (rest ++ more) := by
    rw [State.extend, hheader, List.cons_append]
  refine ⟨_, withBlock_of_header hw' hheader' ho, ?_, .inr ⟨rfl, rfl, by simp, by simp⟩⟩
  have hlen := congrArg List.length (hs.unread_eq.symm.trans hheader)
  rw [List.length_drop, List.length_cons] at hlen
  show _ ≤ s.read + 1 + ((rest ++ more).takeWhile isAttribute).length
  rw [htake, List.length_append]
  omega

theorem State.Beyond.withBlock (h : s.Beyond n t) (ht : t.withBlock = .ok t') :
    s.Beyond n t' := by
  obtain ⟨rfl, -⟩ | ⟨header, rest, owner, -, -, -, rfl⟩ := withBlock_cases ht
  · exact h
  · have hread := h.read_le
    exact ⟨by show n ≤ t.read + 1 + _; omega, .inl hread⟩

theorem State.Beyond.perform (h : s.Beyond n t) (i : Nat) (line : Line) (a : Action) :
    s.Beyond n (t.perform i line a).state := by
  by_cases ha : a = .compare
  · subst ha
    show s.Beyond n (t.compare i line)
    cases hp : t.placed? i line with
    | none => rwa [compare_of_placed?_eq_none hp]
    | some p =>
      obtain ⟨rest, -, -, -, -, -, -, hc⟩ := placed?_eq_some hp
      have hread := h.read_le
      have hle : n ≤ t.read + 1 + (rest.takeWhile isBlankLine).length := by omega
      rw [hc]
      exact ⟨hle, .inl hle⟩
  · obtain ⟨hb, -, hr, hf⟩ := @perform_frame t i line _ ha
    exact h.congr_right hb hr hf

theorem State.Beyond.ready (h : s.Beyond n w.state) (hw : w.ready = .ok t) : s.Beyond n t := by
  obtain ⟨-, hw⟩ | ⟨-, rfl⟩ := ready_cases hw
  · exact h.withBlock hw
  · exact h

theorem State.Beyond.step (h : s.Beyond n w.state) (hw : w.step i line = .ok v) :
    s.Beyond n v.state := by
  obtain ⟨t, ht, rfl⟩ := step_eq_ok_iff.1 hw
  exact (h.ready ht).perform i line _

/-- What is placed beyond the first lines is named behind them. -/
theorem State.Beyond.lt_stop (h : s.Beyond n t) (hr : t.Reads contracts) {p : Placement}
    (hp : t.placed? i line = some p) : n < p.stop := by
  obtain ⟨-, hb, -⟩ := placed?_eq_some hp
  have hread := hr.read_eq _ hb
  have hle := h.read_le
  unfold Placement.stop
  omega

theorem State.Beyond.walk {ls : List Line} (h : s.Beyond n w.state) (hr : w.state.Reads contracts)
    (hw : Merge.walk ls i w = .ok v) :
    s.Beyond n v.state ∧ ∀ p ∈ placements ls i w, n < p.stop := by
  induction ls generalizing i w with
  | nil =>
    obtain rfl := Except.ok.inj hw
    exact ⟨h, fun _ hp => absurd hp List.not_mem_nil⟩
  | cons line rest ih =>
    obtain ⟨u, hu, hrest⟩ := walk_cons_eq_ok_iff.1 hw
    obtain ⟨hv, hps⟩ := ih (h.step hu) (step_reads hr hu).1 hrest
    refine ⟨hv, fun p hp => ?_⟩
    rw [placements_cons hu, List.mem_append, Option.mem_toList] at hp
    rcases hp with hp | hp
    · obtain ⟨t, ht, htp, -⟩ := step_of_placed? hu hp
      exact (h.ready ht).lt_stop (ready_reads hr ht).1 htp
    · exact hps p hp

/-- A walk beyond the first lines is stopped by a header behind them. -/
theorem State.Beyond.walk_error {ls : List Line} {e : Unreadable} (h : s.Beyond n w.state)
    (hr : w.state.Reads contracts) (hw : Merge.walk ls i w = .error e) :
    ∃ header ∈ contracts.drop n, headerOwner? header = none := by
  induction ls generalizing i w with
  | nil => cases hw
  | cons line rest ih =>
    rw [Merge.walk] at hw
    cases hu : w.step i line with
    | ok u =>
      rw [hu] at hw
      exact ih (h.step hu) (step_reads hr hu).1 hw
    | error e' =>
      obtain ⟨-, -, -, header, rest, hunread, ho⟩ := step_eq_error_iff.1 hu
      refine ⟨header, ?_, ho⟩
      rw [hr.unread_eq] at hunread
      have hmem : header ∈ contracts.drop w.state.read := hunread ▸ List.mem_cons_self
      exact (List.drop_subset_drop_left contracts h.read_le) hmem

end Beyond

/-! ## Walks and sweeps -/

/-- A walk that is to pass the first `n` contract lines, where a walk with these only ends in `s`: a
header behind them stops it, or it places `qs` and then only blocks that are named behind them. -/
def Passes (n : Nat) (more ls : List Line) (i : Nat) (w : Walk) (qs : List Placement) (s : State) :
    Prop :=
  (∃ e, walk ls i w = .error e ∧ ∃ header ∈ more, headerOwner? header = none) ∨
    ∃ v ps, walk ls i w = .ok v ∧ placements ls i w = qs ++ ps ∧ (∀ p ∈ ps, n < p.stop) ∧
      s.Beyond n v.state

section Walks

variable {contracts more ls : List Line} {n i : Nat} {line : Line} {w v : Walk} {s : State}
  {qs : List Placement}

theorem passes_of_beyond (ls : List Line) (i : Nat) (h : s.Beyond contracts.length w.state)
    (hr : w.state.Reads (contracts ++ more)) : Passes contracts.length more ls i w [] s := by
  cases hw : walk ls i w with
  | error e =>
    obtain ⟨header, hmem, ho⟩ := h.walk_error hr hw
    rw [List.drop_left] at hmem
    exact .inl ⟨e, hw, header, hmem, ho⟩
  | ok v =>
    obtain ⟨hb, hps⟩ := h.walk hr hw
    exact .inr ⟨v, _, hw, rfl, hps, hb⟩

theorem Passes.cons (hstep : w.step i line = .ok v) (h : Passes n more ls (i + 1) v qs s) :
    Passes n more (line :: ls) i w ((w.placed? i line).toList ++ qs) s := by
  rcases h with ⟨e, he, hheader⟩ | ⟨u, ps, hu, hps, hlt, hb⟩
  · refine .inl ⟨e, ?_, hheader⟩
    rw [walk, hstep]
    exact he
  · refine .inr ⟨u, ps, walk_cons_eq_ok_iff.2 ⟨v, hstep, hu⟩, ?_, hlt, hb⟩
    rw [placements_cons hstep, hps, List.append_assoc]

/-- A block that is placed here may also be one of those behind. -/
theorem Passes.named (h : Passes n more ls i w qs s) (hqs : ∀ p ∈ qs, n < p.stop) :
    Passes n more ls i w [] s := by
  rcases h with h | ⟨v, ps, hv, hps, hlt, hb⟩
  · exact .inl h
  · refine .inr ⟨v, qs ++ ps, hv, hps, fun p hp => ?_, hb⟩
    exact (List.mem_append.1 hp).elim (hqs p) (hlt p)

/-- The step at which the first lines are used up while a block is read. -/
theorem step_beyond (i : Nat) (line : Line) (hr : w.state.Reads contracts)
    (hr' : (w.extend more).state.Reads (contracts ++ more)) (hne : w.state.unread ≠ [])
    (hs : w.ready = .ok s) (hu : s.unread = []) :
    ∃ v, (w.extend more).step i line = .ok v ∧ s.Beyond contracts.length v.state ∧
      ∀ p, (w.extend more).placed? i line = some p → contracts.length < p.stop := by
  obtain ⟨hm, hblock⟩ | ⟨-, rfl⟩ := ready_cases hs
  · obtain ⟨t, ht, hb⟩ := withBlock_beyond_of_used_up more hr hne hblock hu
    have hready : (w.extend more).ready = .ok t := by
      rw [Walk.ready, show (w.extend more).mode = .free from hm]
      exact ht
    have hstep : (w.extend more).step i line = .ok _ := step_eq_ok_iff.2 ⟨t, hready, rfl⟩
    refine ⟨_, hstep, hb.perform i line _, fun p hp => ?_⟩
    obtain ⟨t', ht', htp, -⟩ := step_of_placed? hstep hp
    obtain rfl := Except.ok.inj (hready.symm.trans ht')
    exact hb.lt_stop (ready_reads hr' hready).1 htp
  · exact absurd hu hne

/-- The walk with more contract lines behind goes in step with the walk without them, or passes
it. -/
theorem walk_extend (hmore : Starts more) (hr : w.state.Reads contracts)
    (hr' : (w.extend more).state.Reads (contracts ++ more)) (hne : w.state.unread ≠ [])
    (h : walk ls i w = .ok v) :
    (v.state.unread ≠ [] ∧ walk ls i (w.extend more) = .ok (v.extend more)) ∨
      v.state.unread = [] ∧
        Passes contracts.length more ls i (w.extend more) (placements ls i w) v.state := by
  induction ls generalizing i w with
  | nil =>
    obtain rfl := Except.ok.inj h
    exact .inl ⟨hne, rfl⟩
  | cons line rest ih =>
    obtain ⟨u, hu, hrest⟩ := walk_cons_eq_ok_iff.1 h
    obtain ⟨s, hs, hperform⟩ := step_eq_ok_iff.1 hu
    have hur := (step_reads hr hu).1
    by_cases hsu : s.unread = []
    · obtain ⟨hnone, huu, hub, hurd, huf⟩ := step_of_ready_used_up hs hsu hu
      obtain ⟨v', hv', hps, hvu, hvb, hvr, hvf⟩ := walk_of_used_up rest (i + 1) huu
      obtain rfl := Except.ok.inj (hrest.symm.trans hv')
      obtain ⟨u', hu', hbeyond, hlt⟩ := step_beyond i line hr hr' hne hs hsu
      have hbeyond' := hbeyond.congr_left (hvb.trans hub) (hvr.trans hurd) (hvf.trans huf)
      have hpass := (passes_of_beyond rest (i + 1) hbeyond' (step_reads hr' hu').1).cons hu'
      rw [placements_cons hu, hnone, hps]
      refine .inr ⟨hvu, hpass.named fun p hp => ?_⟩
      rw [List.append_nil, Option.mem_toList] at hp
      exact hlt p hp
    · obtain ⟨hstep, hplaced⟩ := step_extend hmore hs hsu hu
      have hur' := (step_reads hr' hstep).1
      rw [placements_cons hu, ← hplaced]
      by_cases huu : u.state.unread = []
      · obtain ⟨v', hv', hps, hvu, hvb, hvr, hvf⟩ := walk_of_used_up rest (i + 1) huu
        obtain rfl := Except.ok.inj (hrest.symm.trans hv')
        have hbeyond := (beyond_extend more hur huu).congr_left hvb hvr hvf
        rw [hps]
        exact .inr ⟨hvu, (passes_of_beyond rest (i + 1) hbeyond hur').cons hstep⟩
      · rcases ih hur hur' huu hrest with ⟨hvu, hwalk⟩ | ⟨hvu, hpass⟩
        · exact .inl ⟨hvu, walk_cons_eq_ok_iff.2 ⟨_, hstep, hwalk⟩⟩
        · exact .inr ⟨hvu, hpass.cons hstep⟩

theorem walk_extend_error {e : Unreadable} (hmore : Starts more) (h : walk ls i w = .error e) :
    walk ls i (w.extend more) = .error e := by
  induction ls generalizing i w with
  | nil => cases h
  | cons line rest ih =>
    rw [walk] at h ⊢
    cases hu : w.step i line with
    | error e' =>
      rw [hu] at h
      rw [step_extend_error hu]
      exact h
    | ok u =>
      rw [hu] at h
      obtain ⟨s, hs, -⟩ := step_eq_ok_iff.1 hu
      have hsu : s.unread ≠ [] := by
        intro hsu
        have huu := (step_of_ready_used_up hs hsu hu).2.1
        obtain ⟨v, hv, -⟩ := walk_of_used_up rest (i + 1) huu
        cases h.symm.trans hv
      rw [(step_extend hmore hs hsu hu).1]
      exact ih h

/-! ### Sweeps -/

theorem extend_start (contracts more : List Line) :
    Walk.extend ⟨.free, State.start contracts⟩ more =
      ⟨.free, State.start (contracts ++ more)⟩ := rfl

/-- What a sweep gives that ends in this state. -/
def State.toSweep (s : State) : Sweep :=
  ⟨s.found, s.importLine, s.attributeBeforeImport, s.remaining⟩

theorem sweep_eq_walk (hls : ls ≠ []) (hc : contracts ≠ []) :
    sweep ls contracts =
      (walk ls 0 ⟨.free, State.start contracts⟩).map fun w => w.state.toSweep :=
  if_neg (by simp [hls, hc])

theorem Starts.append_ne_nil (hmore : Starts more) (contracts : List Line) :
    contracts ++ more ≠ [] := by
  obtain ⟨line, rest, rfl, -⟩ := hmore
  simp

theorem sweep_extend_error {e : Unreadable} (hmore : Starts more)
    (h : sweep ls contracts = .error e) : sweep ls (contracts ++ more) = .error e := by
  by_cases hls : ls = []
  · subst hls
    cases h
  by_cases hc : contracts = []
  · subst hc
    rw [sweep, if_pos (by simp)] at h
    cases h
  rw [sweep_eq_walk hls hc] at h
  rw [sweep_eq_walk hls (hmore.append_ne_nil contracts), ← extend_start]
  cases hw : walk ls 0 ⟨.free, State.start contracts⟩ with
  | ok v => simp [hw, Except.map] at h
  | error e' =>
    rw [walk_extend_error hmore hw]
    rwa [hw] at h

/-- How a sweep with `more` contract lines behind ends, where the one without them ends with `s`. -/
inductive Sweep.Followed (contracts more ls : List Line) (s : Sweep) : Prop
  /-- It finds the same and ends at the same block. -/
  | level {s' : Sweep} (h : sweep ls (contracts ++ more) = .ok s') (hfound : s'.found = s.found)
      (hrem : s'.remaining = s.remaining) (hne : s.remaining ≠ .everything)
  /-- A header behind stops it. -/
  | stopped {e : Unreadable} (h : sweep ls (contracts ++ more) = .error e)
      (hheader : ∃ header ∈ more, headerOwner? header = none)
  /-- It goes on to the lines behind, as no line is left before them that could name the function
  of the block at which the other one ends. -/
  | passed {s' : Sweep} {ps : List Placement} (h : sweep ls (contracts ++ more) = .ok s')
      (hfound : s'.found = s.found ++ numbered s.found.length ps)
      (hps : ∀ p ∈ ps, contracts.length < p.stop ∧ p.Fits (contracts ++ more) ls)
      (hne : s'.remaining ≠ .everything)
      (hk : ∀ k, s'.remaining = .block k → contracts.length ≤ k)
      (hopen : ∀ k, s.remaining = .block k →
        (∃ header ∈ contracts[k]?, headerOwner? header ≠ none) ∧
          ∀ l ∈ contracts.drop (k + 1), isAttribute l = true)

theorem remaining_ne_everything {contracts : List Line} {s : Sweep} (hls : ls ≠ [])
    (hc : contracts ≠ []) (h : sweep ls contracts = .ok s) : s.remaining ≠ .everything := by
  obtain ⟨hnil, -⟩ | ⟨-, -, w, -, rfl⟩ := sweep_cases h
  · exact absurd hnil (not_or.2 ⟨hls, hc⟩)
  · show w.state.remaining ≠ _
    unfold State.remaining
    cases w.state.block <;> simp

theorem start_of_remaining {s : State} {k : Nat} (h : s.remaining = .block k) :
    ∃ b, s.block = some b ∧ b.start = k := by
  unfold State.remaining at h
  cases hb : s.block with
  | none => simp [hb] at h
  | some b =>
    simp only [hb, Remaining.block.injEq] at h
    exact ⟨b, rfl, h⟩

/-- The last block of a walk that has used its lines up has no other line than its attributes. -/
theorem attributes_of_used_up {s : State} {b : Block} (hr : s.Reads contracts)
    (hu : s.unread = []) (hb : s.block = some b) :
    (∃ header ∈ contracts[b.start]?, headerOwner? header ≠ none) ∧
      ∀ l ∈ contracts.drop (b.start + 1), isAttribute l = true := by
  obtain ⟨⟨header, hheader, ho⟩, hpre, hattr⟩ := hr.block_standsIn b hb
  refine ⟨⟨header, hheader, by simp [ho]⟩, fun l hl => hattr l ?_⟩
  have hlen : contracts.length ≤ s.read := List.drop_eq_nil_iff.1 (hr.unread_eq.symm.trans hu)
  have hread := hr.read_eq b hb
  rwa [hpre.eq_of_length_le (by rw [List.length_drop]; omega)]

theorem followed_of_passes (hls : ls ≠ []) (hmore : Starts more) {s : Sweep} {t : State}
    (hfound : s.found = numbered 0 qs) (htf : t.found = s.found)
    (hrem : ∀ b, t.block = some b → s.remaining = .block b.start)
    (hopen : ∀ k, s.remaining = .block k → (∃ header ∈ contracts[k]?, headerOwner? header ≠ none) ∧
      ∀ l ∈ contracts.drop (k + 1), isAttribute l = true)
    (h : Passes contracts.length more ls 0 ⟨.free, State.start (contracts ++ more)⟩ qs t) :
    s.Followed contracts more ls := by
  have hc := hmore.append_ne_nil contracts
  have hsweep := sweep_eq_walk hls hc
  rcases h with ⟨e, hw, hheader⟩ | ⟨v, ps, hw, hps, hlt, hb⟩
  · rw [hw] at hsweep
    exact .stopped hsweep hheader
  rw [hw] at hsweep
  have hsweep : sweep ls (contracts ++ more) = .ok v.state.toSweep := hsweep
  rcases hb.front with hfront | ⟨hfront, hvf, htb, hvb⟩
  · have hall : v.state.toSweep.found = s.found ++ numbered s.found.length ps := by
      rw [found_sweep hsweep, placed, hps, numbered_append, Nat.zero_add, hfound, length_numbered]
    refine .passed hsweep hall (fun p hp => ⟨hlt p hp, ?_⟩)
      (remaining_ne_everything hls hc hsweep) (fun k hk => ?_) hopen
    · exact placed_fits hsweep (by rw [placed, hps]; exact List.mem_append_right _ hp)
    · obtain ⟨b, hb, rfl⟩ := start_of_remaining hk
      rwa [State.front, hb] at hfront
  · obtain ⟨b, hb⟩ := Option.ne_none_iff_exists'.1 htb
    obtain ⟨b', hb'⟩ := Option.ne_none_iff_exists'.1 hvb
    have hstart : b'.start = b.start := by simpa [State.front, hb, hb'] using hfront
    refine .level hsweep (hvf.trans htf) ?_ (by simp [hrem b hb])
    show v.state.remaining = _
    rw [State.remaining, hb', hrem b hb]
    exact congrArg Remaining.block hstart

/-- More contract lines behind change nothing before the ones in front are used up. -/
theorem sweep_extend {s : Sweep} (hmore : Starts more) (hls : ls ≠ [])
    (h : sweep ls contracts = .ok s) : s.Followed contracts more ls := by
  obtain ⟨hnil, rfl⟩ | ⟨-, hc, w, hw, rfl⟩ := sweep_cases h
  · obtain rfl : contracts = [] := hnil.resolve_left hls
    have hbeyond : (State.start []).Beyond ([] : List Line).length (State.start more) :=
      ⟨Nat.zero_le _, .inl (Nat.zero_le _)⟩
    have hpass : Passes ([] : List Line).length more ls 0 ⟨.free, State.start more⟩ []
        (State.start []) := passes_of_beyond ls 0 hbeyond (start_reads _)
    exact followed_of_passes (t := State.start []) hls hmore rfl rfl (fun _ hb => nomatch hb)
      (fun _ hk => nomatch hk) hpass
  · have hr := (walk_reads (start_reads contracts) hw).1
    rcases walk_extend hmore (start_reads contracts) (start_reads (contracts ++ more)) hc hw with
      ⟨-, hwalk⟩ | ⟨hu, hpass⟩
    · have hsweep := sweep_eq_walk hls (hmore.append_ne_nil contracts)
      rw [← extend_start, hwalk] at hsweep
      exact .level hsweep rfl rfl (remaining_ne_everything hls hc h)
    · refine followed_of_passes hls hmore (found_sweep h) rfl (fun b hb => ?_) (fun k hk => ?_)
        hpass
      · rw [State.remaining, hb]
      · obtain ⟨b, hb, rfl⟩ := start_of_remaining hk
        exact attributes_of_used_up hr hu hb

/-- A sweep is stopped by one of its headers. -/
theorem header_of_sweep_error {e : Unreadable} (h : sweep ls contracts = .error e) :
    ∃ header ∈ contracts, headerOwner? header = none := by
  by_cases hnil : ls = [] ∨ contracts = []
  · rw [sweep, if_pos (by simpa using hnil)] at h
    cases h
  obtain ⟨hls, hc⟩ := not_or.1 hnil
  rw [sweep_eq_walk hls hc] at h
  cases hw : walk ls 0 ⟨.free, State.start contracts⟩ with
  | ok v => simp [hw, Except.map] at h
  | error e' =>
    have hbeyond : (State.start []).Beyond 0 (State.start contracts) :=
      ⟨Nat.zero_le _, .inl (Nat.zero_le _)⟩
    exact hbeyond.walk_error (w := ⟨.free, State.start contracts⟩) (start_reads contracts) hw

/-- No line is left to name a function: nothing is found. -/
theorem found_of_attributes {s : Sweep} (hc : ∀ l ∈ contracts.tail, isAttribute l = true)
    (h : sweep ls contracts = .ok s) : s.found = [] := by
  obtain ⟨-, rfl⟩ | ⟨hls, hne, w, hw, rfl⟩ := sweep_cases h
  · rfl
  obtain ⟨line, rest, rfl⟩ := List.exists_cons_of_ne_nil hls
  obtain ⟨header, attributes, rfl⟩ := List.exists_cons_of_ne_nil hne
  obtain ⟨v, hv, hrest⟩ := walk_cons_eq_ok_iff.1 hw
  obtain ⟨s, hs, -⟩ := step_eq_ok_iff.1 hv
  have hu : s.unread = [] := by
    obtain ⟨rfl, hwant | hu⟩ | ⟨header', rest', owner, -, hu, -, rfl⟩ :=
      withBlock_cases (s := State.start (header :: attributes)) hs
    · cases hwant
    · exact hu
    · obtain ⟨rfl, rfl⟩ := List.cons.inj hu
      have hdrop : (attributes ++ []).dropWhile isAttribute = [] := List.dropWhile_append_of_pos hc
      rwa [List.append_nil] at hdrop
  obtain ⟨-, hvu, -, -, hvf⟩ := step_of_ready_used_up hs hu hv
  obtain ⟨w', hw', -, -, -, -, hwf⟩ := walk_of_used_up rest 1 hvu
  obtain rfl := Except.ok.inj (hrest.symm.trans hw')
  show w.state.found = []
  rw [hwf, hvf, (ready_frame hs).2.1]
  rfl

end Walks

end Covenant.Merge
