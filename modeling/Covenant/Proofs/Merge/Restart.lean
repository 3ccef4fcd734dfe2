import Covenant.Proofs.Merge.Dressing
import Covenant.Proofs.World.Effect
import Mathlib.Data.List.Chain

/-!
# Taking a sweep up again

The rounds of a merge, one for each sweep. A round makes the insertions of the one before it and
sweeps again from the contract line where that one stopped. A sweep that stops where it was started
gives its block up. `merge_runs` says that the rounds come to an end, each from a later contract
line than the one before it, and that no contract line is inserted twice.
-/

namespace Covenant.Merge

open Text Contracts

/-! ## Rounds -/

/-- A merge after one of its sweeps. -/
structure Round where
  /-- The lines that were swept. -/
  lines : List Line
  /-- The contract line from which the sweep started. -/
  start : Nat
  /-- What the sweep found, not yet inserted. -/
  pending : List Insertion
  /-- The contract line of the block at which the sweep stopped. -/
  reached : Option Nat
  /-- The contract line from which the next sweep starts. -/
  restart : Option Nat
  deriving DecidableEq, Repr

/-- The lines with what was found. -/
def Round.result (r : Round) : List Line := insertAll r.lines r.pending

/-- The round of a sweep over the source. -/
def Round.first (source contracts : List Line) (s : Sweep) : Round :=
  ⟨source, 0, s.found, s.remaining.line? 0 contracts.length,
    s.remaining.line? 0 contracts.length⟩

/-- The next round, whose sweep starts at contract line `start`. If it gets no further, the one
after it starts below the next blank line, if there is a line. -/
def Round.advance (contracts : List Line) (r : Round) (start : Nat) : Except Unreadable Round :=
  match sweep r.result (contracts.drop start) with
  | .error e => .error e
  | .ok s =>
    let reached := s.remaining.line? start contracts.length
    let skipped := start + paragraphLength (contracts.drop start)
    let restart :=
      if reached = some start then if skipped < contracts.length then some skipped else none
      else reached
    .ok ⟨r.result, start, s.found, reached, restart⟩

/-- The rounds after `r`, and what they end with. -/
inductive Runs (contracts : List Line) : Round → List Round → Except Unreadable (List Line) → Prop
  | done {r : Round} (h : r.restart = none) : Runs contracts r [] (.ok r.result)
  | fail {r : Round} {start : Nat} {e : Unreadable} (h : r.restart = some start)
      (ha : r.advance contracts start = .error e) : Runs contracts r [] (.error e)
  | next {r r' : Round} {start : Nat} {rs : List Round} {res : Except Unreadable (List Line)}
      (h : r.restart = some start) (ha : r.advance contracts start = .ok r')
      (hr : Runs contracts r' rs res) : Runs contracts r (r' :: rs) res

/-! ## Used contract lines -/

/-- Contract lines that were inserted as attributes, and the indentation they were given. -/
structure Use where
  first : Nat
  count : Nat
  indent : Line
  deriving DecidableEq, Repr

/-- The numbers of the lines. -/
def Use.numbers (u : Use) : List Nat := List.range' u.first u.count

/-- The lines as they are inserted. -/
def Use.text (contracts : List Line) (u : Use) : Line :=
  indented u.indent ((contracts.drop u.first).take u.count)

/-- The use that a placed block is of lines from number `start` on. -/
def Placement.use (start : Nat) (p : Placement) : Use :=
  ⟨start + p.block.start + 1, p.block.attributes.length, indentation p.line⟩

/-- The uses that a sweep over `ls` makes of the contract lines from number `start` on. -/
def uses (contracts ls : List Line) (start : Nat) : List Use :=
  (placed ls (contracts.drop start)).map (Placement.use start)

/-- The uses that a round makes. -/
def Round.uses (contracts : List Line) (r : Round) : List Use :=
  Merge.uses contracts r.lines r.start

theorem text_numbered (n : Nat) (ps : List Placement) :
    (numbered n ps).map Insertion.text = ps.map Placement.text := by
  induction ps generalizing n with
  | nil => rfl
  | cons p ps ih => rw [numbered, List.map_cons, List.map_cons, ih]

theorem mem_numbers_use {start n : Nat} {p : Placement} (h : n ∈ (p.use start).numbers) :
    start + p.block.start < n ∧ n + 1 < start + p.stop := by
  obtain ⟨i, hi, rfl⟩ := List.mem_range'.1 h
  have hcount : (p.use start).count = p.block.attributes.length := rfl
  have hfirst : (p.use start).first = start + p.block.start + 1 := rfl
  rw [hcount] at hi
  rw [hfirst]
  unfold Placement.stop
  omega

theorem text_use {ls contracts : List Line} {start : Nat} {p : Placement}
    (h : p.Fits (contracts.drop start) ls) : (p.use start).text contracts = p.text := by
  have hprefix := h.standsIn.attributes_prefix
  rw [List.drop_drop] at hprefix
  have htake := List.prefix_iff_eq_take.1 hprefix
  unfold Use.text Placement.use Placement.text
  rw [Nat.add_assoc, ← htake]

section Sweep

variable {ls contracts : List Line} {start : Nat} {s : Sweep}
  (h : sweep ls (contracts.drop start) = .ok s)

include h in
/-- What a sweep finds are the contract lines it uses. -/
theorem text_uses :
    s.found.map Insertion.text = (uses contracts ls start).map (Use.text contracts) := by
  rw [found_sweep h, text_numbered, uses, List.map_map]
  exact List.map_congr_left fun p hp => (text_use (placed_fits h hp)).symm

include h in
/-- The lines that a sweep uses follow each other. -/
theorem uses_pairwise : ((uses contracts ls start).flatMap Use.numbers).Pairwise (· < ·) := by
  have hpair := placed_pairwise h
  unfold uses
  generalize placed ls (contracts.drop start) = ps at hpair
  induction ps with
  | nil => exact List.Pairwise.nil
  | cons p ps ih =>
    obtain ⟨hp, hps⟩ := List.pairwise_cons.1 hpair
    rw [List.map_cons, List.flatMap_cons, List.pairwise_append]
    refine ⟨List.pairwise_lt_range', ih hps, fun a ha b hb => ?_⟩
    obtain ⟨u, hu, hb⟩ := List.mem_flatMap.1 hb
    obtain ⟨q, hq, rfl⟩ := List.mem_map.1 hu
    have h₁ := (mem_numbers_use ha).2
    have h₂ := (mem_numbers_use hb).1
    have h₃ := (hp q hq).1
    omega

include h in
/-- The lines that a sweep uses stand between its start and the line it reaches. -/
theorem mem_uses {n : Nat} (hn : n ∈ (uses contracts ls start).flatMap Use.numbers) :
    start ≤ n ∧ ∀ next, s.remaining.line? start contracts.length = some next → n < next := by
  obtain ⟨u, hu, hn⟩ := List.mem_flatMap.1 hn
  obtain ⟨p, hp, rfl⟩ := List.mem_map.1 hu
  obtain ⟨hlow, hhigh⟩ := mem_numbers_use hn
  refine ⟨by omega, fun next hnext => ?_⟩
  cases hrem : s.remaining with
  | nothing => simp [hrem, Remaining.line?] at hnext
  | block k =>
    have hk : start + k = next := by simpa [hrem, Remaining.line?] using hnext
    have hle := (stop_le_of_remaining h hrem).2 p hp
    omega
  | everything =>
    rw [placed_of_everything h hrem] at hp
    cases hp

include h in
theorem line?_bounds {next : Nat} (hs : start ≤ contracts.length)
    (hn : s.remaining.line? start contracts.length = some next) :
    start ≤ next ∧ next ≤ contracts.length := by
  cases hrem : s.remaining with
  | nothing => simp [hrem, Remaining.line?] at hn
  | block k =>
    have hk : start + k = next := by simpa [hrem, Remaining.line?] using hn
    have hlt := (stop_le_of_remaining h hrem).1
    rw [List.length_drop] at hlt
    omega
  | everything =>
    have hk : contracts.length = next := by simpa [hrem, Remaining.line?] using hn
    omega

include h in
/-- A sweep that stops where it was started finds nothing. -/
theorem found_of_stuck (hn : s.remaining.line? start contracts.length = some start) :
    s.found = [] ∧ uses contracts ls start = [] := by
  suffices hp : placed ls (contracts.drop start) = [] by
    rw [found_sweep h, uses, hp]
    exact ⟨rfl, rfl⟩
  cases hrem : s.remaining with
  | nothing => simp [hrem, Remaining.line?] at hn
  | block k =>
    have hk : k = 0 := by simpa [hrem, Remaining.line?] using hn
    refine List.eq_nil_iff_forall_not_mem.2 fun p hp => ?_
    have hle := (stop_le_of_remaining h hrem).2 p hp
    unfold Placement.stop at hle
    omega
  | everything => exact placed_of_everything h hrem

end Sweep

/-! ## One round -/

/-- What one more round does: it starts from the lines of the one before it, finds nothing if it
gets no further, and leaves a later line to start from, above which are all the lines it uses. -/
theorem advance_spec {contracts : List Line} {r r' : Round} {start : Nat}
    (hs : start ≤ contracts.length) (h : r.advance contracts start = .ok r') :
    r'.lines = r.result ∧ (r'.reached = some start → r'.pending = []) ∧
      (∀ next, r'.restart = some next → start < next ∧ next ≤ contracts.length) ∧
      r'.pending.map Insertion.text = (r'.uses contracts).map (Use.text contracts) ∧
      ((r'.uses contracts).flatMap Use.numbers).Pairwise (· < ·) ∧
      ∀ n ∈ (r'.uses contracts).flatMap Use.numbers,
        start ≤ n ∧ ∀ next, r'.restart = some next → n < next := by
  unfold Round.advance at h
  split at h
  · cases h
  · next s hsweep =>
    obtain rfl := Except.ok.inj h
    refine ⟨rfl, fun hn => (found_of_stuck hsweep hn).1, ?_⟩
    by_cases hstuck : s.remaining.line? start contracts.length = some start
    · obtain ⟨hfound, huses⟩ := found_of_stuck hsweep hstuck
      simp only [hstuck, if_true, Round.uses, huses, hfound]
      refine ⟨fun next hn => ?_, rfl, List.Pairwise.nil, fun _ h => absurd h List.not_mem_nil⟩
      split at hn
      · obtain rfl := Option.some.inj hn
        have hne : contracts.drop start ≠ [] := by
          rw [Ne, List.drop_eq_nil_iff]
          omega
        have := paragraphLength_pos hne
        omega
      · cases hn
    · simp only [hstuck, if_false]
      refine ⟨fun next hn => ?_, text_uses hsweep, uses_pairwise hsweep, fun n => mem_uses hsweep⟩
      obtain ⟨hle, hlen⟩ := line?_bounds hsweep hs hn
      have hne : start ≠ next := fun he => hstuck (he ▸ hn)
      omega

/-! ## All rounds -/

section Runs

variable {contracts : List Line} {r : Round} {rs : List Round}
  {res : Except Unreadable (List Line)}

/-- Every sweep starts at a later contract line than the one before it. -/
theorem Runs.restart_lt (h : Runs contracts r rs res)
    (hr : ∀ start, r.restart = some start → start ≤ contracts.length) :
    ((r :: rs).filterMap Round.restart).Pairwise (· < ·) ∧
      ∀ k ∈ rs.filterMap Round.restart, ∃ start, r.restart = some start ∧ start < k := by
  induction h with
  | done h => simp [h]
  | fail h => simp [h]
  | @next r r' start rs res h ha _ ih =>
    obtain ⟨-, -, hlt, -⟩ := advance_spec (hr start h) ha
    obtain ⟨hpair, hle⟩ := ih fun next hn => (hlt next hn).2
    have hlater : ∀ k ∈ (r' :: rs).filterMap Round.restart, start < k := by
      intro k hk
      obtain ⟨q, hq, hqk⟩ := List.mem_filterMap.1 hk
      rcases List.mem_cons.1 hq with rfl | hq
      · exact (hlt k hqk).1
      · obtain ⟨next, hn, hnk⟩ := hle k (List.mem_filterMap.2 ⟨q, hq, hqk⟩)
        exact Nat.lt_trans (hlt next hn).1 hnk
    rw [List.filterMap_cons_some h]
    exact ⟨List.pairwise_cons.2 ⟨hlater, hpair⟩, fun k hk => ⟨start, h, hlater k hk⟩⟩

/-- A sweep that stops where it was started leaves nothing to insert. -/
theorem Runs.stuck (h : Runs contracts r rs res)
    (hr : ∀ start, r.restart = some start → start ≤ contracts.length) :
    (r :: rs).IsChain fun r r' => r'.reached = r.restart → r'.pending = [] := by
  induction h with
  | done h => exact List.isChain_singleton _
  | fail h => exact List.isChain_singleton _
  | @next r r' start rs res h ha _ ih =>
    obtain ⟨-, hstuck, hlt, -⟩ := advance_spec (hr start h) ha
    refine List.isChain_cons_cons.2 ⟨fun hreached => hstuck (hreached.trans h), ?_⟩
    exact ih fun next hn => (hlt next hn).2

/-- The rounds end with everything they found inserted, each once. -/
theorem Runs.result_eq (h : Runs contracts r rs res)
    (hr : ∀ start, r.restart = some start → start ≤ contracts.length) {ls : List Line}
    (hres : res = .ok ls) : ls = insertAll r.lines ((r :: rs).flatMap Round.pending) := by
  induction h with
  | done h =>
    obtain rfl := Except.ok.inj hres
    simp [Round.result]
  | fail h => cases hres
  | @next r r' start rs res h ha _ ih =>
    obtain ⟨hlines, -, hlt, -⟩ := advance_spec (hr start h) ha
    rw [ih (fun next hn => (hlt next hn).2) hres, hlines, List.flatMap_cons (x := r),
      insertAll_append]
    rfl

/-- The contract lines that are used after a round stand from its restart on, in order. -/
theorem Runs.uses_pairwise (h : Runs contracts r rs res)
    (hr : ∀ start, r.restart = some start → start ≤ contracts.length) :
    (rs.flatMap Round.pending).map Insertion.text =
        (rs.flatMap (Round.uses contracts)).map (Use.text contracts) ∧
      ((rs.flatMap (Round.uses contracts)).flatMap Use.numbers).Pairwise (· < ·) ∧
      ∀ n ∈ (rs.flatMap (Round.uses contracts)).flatMap Use.numbers,
        ∃ start, r.restart = some start ∧ start ≤ n := by
  induction h with
  | done h => exact ⟨rfl, List.Pairwise.nil, nofun⟩
  | fail h => exact ⟨rfl, List.Pairwise.nil, nofun⟩
  | @next r r' start rs res h ha _ ih =>
    obtain ⟨-, -, hlt, htext, hpair, hmem⟩ := advance_spec (hr start h) ha
    obtain ⟨htext', hpair', hge'⟩ := ih fun next hn => (hlt next hn).2
    simp only [List.flatMap_cons, List.flatMap_append, List.map_append]
    refine ⟨by rw [htext, htext'], List.pairwise_append.2 ⟨hpair, hpair', fun a ha b hb => ?_⟩,
      fun n hn => ⟨start, h, ?_⟩⟩
    · obtain ⟨next, hn, hle⟩ := hge' b hb
      exact Nat.lt_of_lt_of_le ((hmem a ha).2 next hn) hle
    · rcases List.mem_append.1 hn with hn | hn
      · exact (hmem n hn).1
      · obtain ⟨next, hn', hle⟩ := hge' n hn
        exact Nat.le_trans (Nat.le_of_lt (hlt next hn').1) hle

end Runs

/-! ## The rounds of a merge -/

theorem result_of_add {r : Round} {m : Merged} (h : r.result = m.lines) (s : Sweep) (start : Nat)
    (reached restart : Option Nat) :
    (⟨r.result, start, s.found, reached, restart⟩ : Round).result = (m.add s).lines := by
  rw [Round.result, h]
  rfl

/-- The last round of a merge. -/
theorem runs_of_add {contracts : List Line} {r : Round} {m : Merged} (h : r.result = m.lines)
    (s : Sweep) (start : Nat) (reached : Option Nat) :
    Runs contracts ⟨r.result, start, s.found, reached, none⟩ []
      ((Except.ok (m.add s)).map Merged.lines) := by
  show Runs contracts _ [] (.ok (m.add s).lines)
  rw [← result_of_add h s start reached none]
  exact .done rfl

/-- The sweeps from line `start` on are the rounds after one that is to be taken up there. -/
theorem resume_runs {contracts : List Line} {m : Merged} {start : Nat} :
    ∀ r : Round, r.restart = some start → r.result = m.lines → start ≤ contracts.length →
      ∃ rs, Runs contracts r rs ((resume contracts m start).map Merged.lines) := by
  fun_induction resume contracts m start with
  | case1 m start e he =>
    intro r hr hl hs
    exact ⟨[], .fail hr (by rw [Round.advance, hl, he])⟩
  | case2 m start s hsweep hnone =>
    intro r hr hl hs
    refine ⟨_, .next hr ?_ (runs_of_add hl s start none)⟩
    rw [Round.advance, hl, hsweep]
    simp only [hnone]
    rfl
  | case3 m start s hsweep next hn hlt ih =>
    intro r hr hl hs
    obtain ⟨rs, hrs⟩ := ih _ rfl (result_of_add hl s start (some next) _)
      (line?_bounds hsweep hs hn).2
    refine ⟨_, .next hr ?_ hrs⟩
    have hne : next ≠ start := by omega
    rw [Round.advance, hl, hsweep]
    simp only [hn, Option.some.injEq, hne, if_false]
  | case4 m start s hsweep next hn hlt skipped hsk ih =>
    intro r hr hl hs
    -- the sweep got no further
    have hnext : next = start := by
      have := line?_bounds hsweep hs hn
      omega
    obtain ⟨rs, hrs⟩ := ih _ rfl (result_of_add hl s start (some next) _) (Nat.le_of_lt hsk)
    refine ⟨_, .next hr ?_ hrs⟩
    rw [Round.advance, hl, hsweep]
    simp only [hn, hnext, if_true]
    rw [if_pos hsk]
  | case5 m start s hsweep next hn hlt skipped hsk =>
    intro r hr hl hs
    have hnext : next = start := by
      have := line?_bounds hsweep hs hn
      omega
    refine ⟨_, .next hr ?_ (runs_of_add hl s start (some next))⟩
    rw [Round.advance, hl, hsweep]
    simp only [hn, hnext, if_true]
    rw [if_neg hsk]

/-- The rounds of a merge end, each sweep starts at a later contract line than the one before it,
everything found is inserted once, and every contract line is used for at most one insertion. -/
theorem merge_runs {source contracts : List Line} {s : Sweep}
    (h : sweep source contracts = .ok s) :
    ∃ rs, let rounds := Round.first source contracts s :: rs
      Runs contracts (.first source contracts s) rs ((merge source contracts).map Merged.lines) ∧
        (rounds.filterMap Round.restart).Pairwise (· < ·) ∧
        (rounds.IsChain fun r r' => r'.reached = r.restart → r'.pending = []) ∧
        (∀ m, merge source contracts = .ok m →
          m.lines = insertAll source (rounds.flatMap Round.pending)) ∧
        (rounds.flatMap Round.pending).map Insertion.text =
          (rounds.flatMap (Round.uses contracts)).map (Use.text contracts) ∧
        ((rounds.flatMap (Round.uses contracts)).flatMap Use.numbers).Pairwise (· < ·) := by
  have hfirst : sweep source (contracts.drop 0) = .ok s := h
  have hbound : ∀ start, (Round.first source contracts s).restart = some start →
      start ≤ contracts.length :=
    fun start hstart => (line?_bounds hfirst (Nat.zero_le _) hstart).2
  have hrun : ∃ rs, Runs contracts (.first source contracts s) rs
      ((merge source contracts).map Merged.lines) := by
    rw [merge, h]
    simp only
    cases hnext : s.remaining.line? 0 contracts.length with
    | none =>
      exact ⟨[], .done hnext⟩
    | some next =>
      exact resume_runs _ hnext rfl (hbound next hnext)
  obtain ⟨rs, hrs⟩ := hrun
  obtain ⟨htext, hpair, hge⟩ := hrs.uses_pairwise hbound
  refine ⟨rs, hrs, (hrs.restart_lt hbound).1, hrs.stuck hbound, fun m hm => ?_, ?_, ?_⟩
  · exact hrs.result_eq hbound (by rw [hm]; rfl)
  · rw [List.flatMap_cons, List.flatMap_cons, List.map_append, List.map_append, htext]
    exact congrArg (· ++ _) (text_uses hfirst)
  · rw [List.flatMap_cons, List.flatMap_append]
    refine List.pairwise_append.2 ⟨uses_pairwise hfirst, hpair, fun a ha b hb => ?_⟩
    obtain ⟨next, hn, hle⟩ := hge b hb
    exact Nat.lt_of_lt_of_le ((mem_uses hfirst ha).2 next hn) hle

/-- The rounds of blocks that come in another order than their functions, one of them without. -/
theorem merge_runs_unordered :
    let source := linesOf "fn a() \x7b\x7d\nfn b() \x7b\x7d\n"
    let contracts := linesOf "_None\n#[x]\nb\n\n_None\n#[y]\nc\n\n_None\n#[z]\na\n"
    ∃ s m rs, sweep source contracts = .ok s ∧ merge source contracts = .ok m ∧
      Runs contracts (.first source contracts s) rs (.ok m.lines) ∧
      ((Round.first source contracts s :: rs).filterMap Round.restart).Pairwise (· < ·) ∧
      m.lines =
        insertAll source ((Round.first source contracts s :: rs).flatMap Round.pending) := by
  intro source contracts
  obtain ⟨s, hs, -⟩ := exists_of_toOption_any (x := sweep source contracts) (p := fun _ => true)
    (by decide +kernel)
  obtain ⟨m, hm, -⟩ := exists_of_toOption_any (x := merge source contracts) (p := fun _ => true)
    (by decide +kernel)
  obtain ⟨rs, hrun, hlt, -, hlines, -⟩ := merge_runs hs
  rw [hm] at hrun
  exact ⟨s, m, rs, hs, hm, hrun, hlt, hlines m hm⟩

end Covenant.Merge
