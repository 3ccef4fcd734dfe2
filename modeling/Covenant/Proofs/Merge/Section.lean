import Covenant.Proofs.Merge.Completeness
import Covenant.Proofs.Merge.Preservation
import Covenant.Proofs.Merge.Restart
import Covenant.Proofs.Sweep.Extend
import Covenant.Proofs.World.Differ

/-!
# Contract lines behind the mark of type invariants

The passes do not stop at the mark of the type invariants: the lines behind it are read as blocks as
well. What they can do is limited (`merge_follows`). Everything that the lines before the mark give
is given first and unchanged; then blocks whose function is named at the mark or below may be
placed, or a line there that is no header may end the merge.
-/

namespace Covenant.Merge

open Text Header Contracts

/-! ## Blocks named below a line -/

/-- The insertion is of a block whose function is named in contract line `n` or below, and declared
by one of the lines `ls`. -/
def Insertion.NamedFrom (contracts : List Line) (n : Nat) (ls : List Line) (i : Insertion) : Prop :=
  ∃ above header attributes name below, ∃ line ∈ ls,
    contracts = above ++ header :: attributes ++ name :: below ∧
      n ≤ (above ++ header :: attributes).length ∧
      declaredName (strip line) = declaredName (strip name) ∧
      i.text = indented (indentation line) attributes

theorem Insertion.NamedFrom.mono {contracts ls ls' : List Line} {n : Nat} {i : Insertion}
    (h : i.NamedFrom contracts n ls) (hls : ∀ l ∈ ls, l ∈ ls') : i.NamedFrom contracts n ls' := by
  obtain ⟨above, header, attributes, name, below, line, hline, hrest⟩ := h
  exact ⟨above, header, attributes, name, below, line, hls line hline, hrest⟩

theorem mem_numbered {n : Nat} {ps : List Placement} {i : Insertion} (h : i ∈ numbered n ps) :
    ∃ p ∈ ps, i.text = p.text := by
  have hmem : i.text ∈ (numbered n ps).map Insertion.text := List.mem_map_of_mem h
  rw [text_numbered] at hmem
  obtain ⟨p, hp, ht⟩ := List.mem_map.1 hmem
  exact ⟨p, hp, ht.symm⟩

theorem namedFrom_of_fits {contracts ls : List Line} {start n : Nat} {p : Placement}
    {i : Insertion} (h : p.Fits (contracts.drop start) ls) (hn : n < start + p.stop)
    (hi : i.text = p.text) : i.NamedFrom contracts n ls := by
  obtain ⟨above, header, below, hsplit, hlength⟩ := h.split
  refine ⟨above, header, p.block.attributes, p.nameLine, below, p.line,
    List.mem_of_getElem? h.line_eq, hsplit, ?_, h.declaredName_eq, hi⟩
  rw [List.length_append, List.length_cons, hlength]
  unfold Placement.stop at hn
  omega

/-! ## Merges with more insertions -/

/-- `r` has the insertions of `m` and then only such as are named in contract line `n` or below. -/
structure Merged.Adds (contracts : List Line) (n : Nat) (m r : Merged) : Prop where
  inserted : ∃ extra, r.inserted = m.inserted ++ extra ∧ r.lines = insertAll m.lines extra ∧
    ∀ i ∈ extra, i.NamedFrom contracts n r.lines

section Adds

variable {contracts : List Line} {n : Nat} {m m' r : Merged}

theorem Merged.Adds.of_eq (hl : r.lines = m.lines) (hi : r.inserted = m.inserted) :
    m.Adds contracts n r :=
  ⟨[], by rw [hi, List.append_nil], hl, fun _ h => absurd h List.not_mem_nil⟩

theorem Merged.Adds.trans (h : m.Adds contracts n m') (h' : m'.Adds contracts n r) :
    m.Adds contracts n r := by
  obtain ⟨extra, hi, hl, hn⟩ := h
  obtain ⟨extra', hi', hl', hn'⟩ := h'
  refine ⟨extra ++ extra', by rw [hi', hi, List.append_assoc], ?_, fun i hmem => ?_⟩
  · rw [hl', hl, insertAll_append]
  · rcases List.mem_append.1 hmem with hmem | hmem
    · exact (hn i hmem).mono fun l h => hl' ▸ mem_insertAll.2 (.inl h)
    · exact hn' i hmem

/-- Insertions of blocks that are all named below. -/
theorem Merged.Adds.of_numbered {ls : List Line} {ps : List Placement} {k start : Nat}
    (hi : r.inserted = m.inserted ++ numbered k ps)
    (hl : r.lines = insertAll m.lines (numbered k ps)) (hls : ∀ l ∈ ls, l ∈ r.lines)
    (hps : ∀ p ∈ ps, n < start + p.stop ∧ p.Fits (contracts.drop start) ls) :
    m.Adds contracts n r := by
  refine ⟨numbered k ps, hi, hl, fun i hmem => ?_⟩
  obtain ⟨p, hp, ht⟩ := mem_numbered hmem
  exact (namedFrom_of_fits (hps p hp).2 (hps p hp).1 ht).mono hls

end Adds

/-- How a merge with `more` contract lines behind ends, given how the one without them ends. -/
inductive Follows (before more : List Line) :
    Except Unreadable Merged → Except Unreadable Merged → Prop
  | adds {r r' : Merged} (h : r.Adds (before ++ more) before.length r') :
      Follows before more (.ok r) (.ok r')
  /-- A line behind is no header. -/
  | stopped {r : Merged} {e : Unreadable} (h : ∃ header ∈ more, headerOwner? header = none) :
      Follows before more (.ok r) (.error e)
  | fails {e e' : Unreadable} : Follows before more (.error e) (.error e')
  /-- The lines before end within a block, which goes on behind them. -/
  | within {e : Unreadable} {x : Except Unreadable Merged}
      (h : ∃ l ∈ before.getLast?, isAttribute l = true) : Follows before more (.error e) x

section Follows

variable {before more : List Line} {m m' r : Merged} {s s' : Sweep} {start : Nat}
  {x : Except Unreadable Merged}

theorem Follows.of_adds (h : m.Adds (before ++ more) before.length m')
    (hx : Follows before more (.ok m') x) : Follows before more (.ok m) x := by
  cases hx with
  | adds hr => exact .adds (h.trans hr)
  | stopped hheader => exact .stopped hheader

theorem Follows.congr (hl : r.lines = m.lines) (hi : r.inserted = m.inserted)
    (hx : Follows before more (.ok m) x) : Follows before more (.ok r) x :=
  .of_adds (.of_eq hl.symm hi.symm) hx

theorem Follows.of_header {e : Unreadable} (h : ∃ header ∈ more, headerOwner? header = none) :
    Follows before more x (.error e) := by
  cases x with
  | ok r => exact .stopped h
  | error e => exact .fails

theorem mem_lines_add {l : Line} (h : l ∈ m.lines) : l ∈ (m.add s).lines :=
  mem_insertAll.2 (.inl h)

/-! ## Passes behind the lines -/

/-- A pass that starts behind adds what is named there. -/
theorem adds_behind (hstart : before.length ≤ start)
    (h : sweep m.lines ((before ++ more).drop start) = .ok s) :
    m.Adds (before ++ more) before.length (m.add s) := by
  have hf := found_sweep h
  refine .of_numbered (congrArg (m.inserted ++ ·) hf) (congrArg (insertAll m.lines) hf)
    (fun l hl => mem_lines_add hl) fun p hp => ⟨?_, placed_fits h hp⟩
  unfold Placement.stop
  omega

/-- Passes that start behind add what is named there. -/
theorem resume_behind (hstart : before.length ≤ start) :
    Follows before more (.ok m) (resume (before ++ more) m start) := by
  fun_induction resume (before ++ more) m start with
  | case1 m start e he =>
    obtain ⟨header, hmem, ho⟩ := header_of_sweep_error he
    refine .stopped ⟨header, ?_, ho⟩
    have := List.drop_subset_drop_left (before ++ more) hstart hmem
    rwa [List.drop_left] at this
  | case2 m start s hs hnone => exact .adds (adds_behind hstart hs)
  | case3 m start s hs next hn hlt ih =>
    exact .of_adds (adds_behind hstart hs) (ih (by omega))
  | case4 m start s hs next hn hlt skipped hsk ih =>
    exact .of_adds (adds_behind hstart hs) (ih (Nat.le_trans hstart (Nat.le_add_right _ _)))
  | case5 m start s hs next hn hlt skipped hsk => exact .adds (adds_behind hstart hs)

section Passed

variable {ps : List Placement} (hl : m'.lines = m.lines) (hi : m'.inserted = m.inserted)
  (hstart : start ≤ before.length)
  (hfound : s'.found = s.found ++ numbered s.found.length ps)
  (hps : ∀ p ∈ ps, (before.drop start).length < p.stop ∧
    p.Fits (before.drop start ++ more) m'.lines)

include hl hi hstart hfound hps

/-- A pass in front that goes on to the lines behind adds what is named there. -/
theorem adds_of_passed : (m.add s).Adds (before ++ more) before.length (m'.add s') := by
  have hins : (m'.add s').inserted = (m.add s).inserted ++ numbered s.found.length ps := by
    show m'.inserted ++ s'.found = m.inserted ++ s.found ++ _
    rw [hi, hfound, List.append_assoc]
  have hlines : (m'.add s').lines = insertAll (m.add s).lines (numbered s.found.length ps) := by
    show insertAll m'.lines s'.found = insertAll (insertAll m.lines s.found) _
    rw [hl, hfound, insertAll_append]
  have hnamed : ∀ p ∈ ps, before.length < start + p.stop ∧
      p.Fits ((before ++ more).drop start) m'.lines := by
    intro p hp
    obtain ⟨hlt, hfits⟩ := hps p hp
    rw [List.length_drop] at hlt
    rw [List.drop_append_of_le_length hstart]
    exact ⟨by omega, hfits⟩
  exact .of_numbered hins hlines (fun l => mem_lines_add) hnamed

theorem resume_of_passed (hmore : more ≠ [])
    (h : sweep m'.lines (before.drop start ++ more) = .ok s') (hne : s'.remaining ≠ .everything)
    (hk : ∀ k, s'.remaining = .block k → (before.drop start).length ≤ k) :
    Follows before more (.ok (m.add s)) (resume (before ++ more) m' start) := by
  have hadds := adds_of_passed hl hi hstart hfound hps
  rw [resume, List.drop_append_of_le_length hstart, h]
  simp only
  cases hrem : s'.remaining with
  | everything => exact absurd hrem hne
  | nothing => exact .adds hadds
  | block k =>
    have hk := hk k hrem
    rw [List.length_drop] at hk
    simp only [Remaining.line?]
    split
    · exact .of_adds hadds (resume_behind (by omega))
    · next hlt =>
      -- no line in front was left
      have hpos := List.length_pos_iff.2 hmore
      rw [List.length_append] at hlt
      split
      · exact .of_adds hadds (resume_behind (by omega))
      · exact .adds hadds

end Passed

/-! ## A block without a name -/

/-- Nothing is found where only attributes follow. -/
theorem resume_of_attributes (h : ∀ l ∈ before.drop (start + 1), isAttribute l = true)
    (hr : resume before m start = .ok r) : r.lines = m.lines ∧ r.inserted = m.inserted := by
  have hadd {m : Merged} {s : Sweep} {start : Nat}
      (h : ∀ l ∈ before.drop (start + 1), isAttribute l = true)
      (hs : sweep m.lines (before.drop start) = .ok s) :
      (m.add s).lines = m.lines ∧ (m.add s).inserted = m.inserted := by
    have hf : s.found = [] := found_of_attributes (by rwa [List.tail_drop]) hs
    simp [Merged.add, hf, insertAll]
  fun_induction resume before m start with
  | case1 => cases hr
  | case2 m start s hs _ =>
    obtain rfl := Except.ok.inj hr
    exact hadd h hs
  | case3 m start s hs next hn hlt ih =>
    obtain ⟨hl, hi⟩ := ih (fun l hl => h l (List.drop_subset_drop_left before (by omega) hl)) hr
    exact ⟨hl.trans (hadd h hs).1, hi.trans (hadd h hs).2⟩
  | case4 m start s hs next hn hlt skipped hsk ih =>
    obtain ⟨hl, hi⟩ := ih (fun l hl => h l (List.drop_subset_drop_left before (by omega) hl)) hr
    exact ⟨hl.trans (hadd h hs).1, hi.trans (hadd h hs).2⟩
  | case5 m start s hs next hn hlt skipped hsk =>
    obtain rfl := Except.ok.inj hr
    exact hadd h hs

/-- A header with nothing below it is given up. -/
theorem resume_of_header (hlen : before.length ≤ start + 1)
    (hheader : ∀ header ∈ before[start]?, headerOwner? header ≠ none) :
    ∃ r, resume before m start = .ok r := by
  fun_induction resume before m start with
  | case1 m start e he =>
    obtain ⟨header, hmem, ho⟩ := header_of_sweep_error he
    obtain ⟨k, hk⟩ := List.mem_iff_getElem?.1 hmem
    rw [List.getElem?_drop] at hk
    have hlt := (List.getElem?_eq_some_iff.1 hk).1
    obtain rfl : k = 0 := by omega
    exact absurd ho (hheader header hk)
  | case2 => exact ⟨_, rfl⟩
  | case3 m start s hs next hn hlt ih =>
    refine ih (by omega) fun header hmem => ?_
    rw [List.getElem?_eq_none (by omega)] at hmem
    cases hmem
  | case4 m start s hs next hn hlt skipped hsk ih =>
    refine ih (by omega) fun header hmem => ?_
    have hne : before.drop start ≠ [] := by
      rw [Ne, List.drop_eq_nil_iff]
      omega
    have := paragraphLength_pos hne
    omega
  | case5 => exact ⟨_, rfl⟩

theorem attribute_of_getLast? (h : ∀ l ∈ before.drop start, isAttribute l = true)
    (hlt : start < before.length) : ∃ l ∈ before.getLast?, isAttribute l = true := by
  have hne : before.drop start ≠ [] := by
    rw [Ne, List.drop_eq_nil_iff]
    omega
  have hlast : (before.drop start).getLast? = before.getLast? := by
    rw [List.getLast?_drop, if_neg (by omega)]
  refine ⟨_, ?_, h _ (List.getLast_mem hne)⟩
  rw [← hlast, List.getLast?_eq_some_getLast hne]
  rfl

/-- The lines in front end with a block that has no name: the passes over it find nothing. -/
theorem follows_of_attributes (h : ∀ l ∈ before.drop (start + 1), isAttribute l = true)
    (herror : (∃ l ∈ before.getLast?, isAttribute l = true) ∨
      ∀ header ∈ before[start]?, headerOwner? header ≠ none)
    (hx : Follows before more (.ok m) x) : Follows before more (resume before m start) x := by
  cases hr : resume before m start with
  | ok r =>
    obtain ⟨hl, hi⟩ := resume_of_attributes h hr
    exact hx.congr hl hi
  | error e =>
    rcases herror with hlast | hheader
    · exact .within hlast
    · by_cases hlen : before.length ≤ start + 1
      · obtain ⟨r, hr'⟩ := resume_of_header (m := m) hlen hheader
        cases hr.symm.trans hr'
      · exact .within (attribute_of_getLast? h (by omega))

/-! ## Passes over the lines in front -/

theorem paragraphLength_append_of_lt {a : List Line} (h : paragraphLength a < a.length)
    (b : List Line) : paragraphLength (a ++ b) = paragraphLength a := by
  induction a with
  | nil => simp at h
  | cons l a ih =>
    rw [List.cons_append, paragraphLength, paragraphLength]
    by_cases hl : isBlankLine l = true
    · rw [if_pos hl, if_pos hl]
    · rw [paragraphLength, if_neg hl, List.length_cons] at h
      rw [if_neg hl, if_neg hl, ih (by omega)]

theorem paragraphLength_le_append (a b : List Line) :
    paragraphLength a ≤ paragraphLength (a ++ b) := by
  induction a with
  | nil => exact Nat.zero_le _
  | cons l a ih =>
    rw [List.cons_append, paragraphLength, paragraphLength]
    split
    · exact Nat.le_refl _
    · omega

theorem line?_of_ne_everything {r : Remaining} (h : r ≠ .everything) (start total total' : Nat) :
    r.line? start total = r.line? start total' := by
  cases r with
  | everything => exact absurd rfl h
  | nothing | block => rfl

theorem block_of_line? {r : Remaining} {start total next : Nat} (h : r ≠ .everything)
    (hn : r.line? start total = some next) : ∃ k, r = .block k ∧ start + k = next := by
  cases r with
  | everything => exact absurd rfl h
  | nothing => cases hn
  | block k => exact ⟨k, rfl, Option.some.inj hn⟩

theorem add_congr (hl : m'.lines = m.lines) (hi : m'.inserted = m.inserted)
    (hf : s'.found = s.found) :
    (m'.add s').lines = (m.add s).lines ∧ (m'.add s').inserted = (m.add s).inserted := by
  simp [Merged.add, hl, hi, hf]

theorem lines_add_ne_nil (h : m.lines ≠ []) (s : Sweep) : (m.add s).lines ≠ [] := by
  obtain ⟨l, hl⟩ := List.exists_mem_of_ne_nil _ h
  exact List.ne_nil_of_mem (mem_lines_add hl)

section Level

variable {next : Nat} (hl : m'.lines = m.lines) (hstart : start ≤ before.length)
  (h : sweep m.lines (before.drop start ++ more) = .ok s') (hrem : s'.remaining = s.remaining)
  (hev : s.remaining ≠ .everything)

include hl hstart h hrem hev

/-! A pass that ends at the same block as the one over the lines in front. -/

theorem resume_level_done (hn : s.remaining.line? start before.length = none) :
    resume (before ++ more) m' start = .ok (m'.add s') := by
  rw [resume, List.drop_append_of_le_length hstart, hl, h]
  simp only
  rw [hrem, line?_of_ne_everything hev _ _ before.length, hn]

theorem resume_level_next (hn : s.remaining.line? start before.length = some next)
    (hlt : start < next ∧ start < before.length) :
    resume (before ++ more) m' start = resume (before ++ more) (m'.add s') next := by
  rw [resume, List.drop_append_of_le_length hstart, hl, h]
  simp only
  rw [hrem, line?_of_ne_everything hev _ _ before.length, hn]
  simp only
  rw [if_pos (by rw [List.length_append]; omega)]

theorem resume_level_skip (hn : s.remaining.line? start before.length = some start) :
    resume (before ++ more) m' start =
      if start + paragraphLength (before.drop start ++ more) < (before ++ more).length then
        resume (before ++ more) (m'.add s') (start + paragraphLength (before.drop start ++ more))
      else .ok (m'.add s') := by
  rw [resume, List.drop_append_of_le_length hstart, hl, h]
  simp only
  rw [hrem, line?_of_ne_everything hev _ _ before.length, hn]
  simp only
  rw [if_neg (by omega)]

end Level

theorem resume_of_sweep_error {e : Unreadable} (hl : m'.lines = m.lines)
    (hstart : start ≤ before.length)
    (h : sweep m.lines (before.drop start ++ more) = .error e) :
    resume (before ++ more) m' start = .error e := by
  rw [resume, List.drop_append_of_le_length hstart, hl, h]

/-- From the block on at which a pass over the lines in front ends, these have no name, so the
passes that start there find nothing. -/
theorem follows_of_open {k n : Nat}
    (hopen : (∃ header ∈ (before.drop start)[k]?, headerOwner? header ≠ none) ∧
      ∀ l ∈ (before.drop start).drop (k + 1), isAttribute l = true)
    (hle : start + k ≤ n) (hlt : n < before.length) (hx : Follows before more (.ok m) x) :
    Follows before more (resume before m n) x := by
  obtain ⟨⟨header, hheader, ho⟩, hattr⟩ := hopen
  rw [List.drop_drop] at hattr
  rw [List.getElem?_drop] at hheader
  have hbelow {i : Nat} (hi : start + k < i) : ∀ l ∈ before.drop i, isAttribute l = true :=
    fun l hl => hattr l (List.drop_subset_drop_left before (by omega) hl)
  refine follows_of_attributes (hbelow (by omega)) ?_ hx
  rcases Nat.eq_or_lt_of_le hle with rfl | hgt
  · refine .inr fun header' hmem => ?_
    rwa [Option.some.inj (hmem.symm.trans hheader)]
  · exact .inl (attribute_of_getLast? (hbelow hgt) hlt)

/-- A pass over the longer file ends at the same block as the one over the lines in front. Or else
the passes over the longer file follow those over the lines in front, whether these end here or go
on from the block at which they are. -/
theorem resume_level_or_ahead (hmore : Starts more) (hne : m.lines ≠ [])
    (hstart : start ≤ before.length) (hs : sweep m.lines (before.drop start) = .ok s)
    (hl : m'.lines = m.lines) (hi : m'.inserted = m.inserted) :
    (∃ s', sweep m.lines (before.drop start ++ more) = .ok s' ∧ s'.remaining = s.remaining ∧
        s.remaining ≠ .everything ∧ (m'.add s').lines = (m.add s).lines ∧
        (m'.add s').inserted = (m.add s).inserted) ∨
      (Follows before more (.ok (m.add s)) (resume (before ++ more) m' start) ∧
        ∀ k n, s.remaining = .block k → start + k ≤ n → n < before.length →
          Follows before more (resume before (m.add s) n) (resume (before ++ more) m' start)) := by
  cases sweep_extend hmore hne hs with
  | @level s' h hfound hrem hev =>
    obtain ⟨hl', hi'⟩ := add_congr hl hi hfound
    exact .inl ⟨s', h, hrem, hev, hl', hi'⟩
  | stopped h hheader =>
    rw [resume_of_sweep_error hl hstart h]
    exact .inr ⟨.of_header hheader, fun _ _ _ _ _ => .of_header hheader⟩
  | passed h hfound hps hev hk hopen =>
    rw [← hl] at h hps
    have hfollows := resume_of_passed hl hi hstart hfound hps (hmore.append_ne_nil []) h hev hk
    exact .inr ⟨hfollows, fun k n hrem hle hlt => follows_of_open (hopen k hrem) hle hlt hfollows⟩

/-- The line from which the passes go on is that of a block, unless none has been read. -/
theorem line?_block {next : Nat} (hne : m.lines ≠ []) (hlt : start < before.length)
    (hs : sweep m.lines (before.drop start) = .ok s)
    (hn : s.remaining.line? start before.length = some next) :
    ∃ k, s.remaining = .block k ∧ start + k = next ∧ next < before.length := by
  have hdrop : before.drop start ≠ [] := by
    rw [Ne, List.drop_eq_nil_iff]
    omega
  obtain ⟨k, hrem, rfl⟩ := block_of_line? (remaining_ne_everything hne hdrop hs) hn
  have hk := (stop_le_of_remaining hs hrem).1
  rw [List.length_drop] at hk
  exact ⟨k, hrem, rfl, by omega⟩

/-- The passes over a file whose first lines are `before` follow the passes over these only. -/
theorem resume_follows (hmore : Starts more) (hne : m.lines ≠ [])
    (hstart : start ≤ before.length) :
    ∀ m' : Merged, m'.lines = m.lines → m'.inserted = m.inserted →
      Follows before more (resume before m start) (resume (before ++ more) m' start) := by
  fun_induction resume before m start with
  | case1 m start e he =>
    intro m' hl hi
    rw [resume_of_sweep_error hl hstart (sweep_extend_error hmore he)]
    exact .fails
  | case2 m start s hs hnone =>
    intro m' hl hi
    obtain ⟨s', h, hrem, hev, hl', hi'⟩ | ⟨hend, -⟩ :=
      resume_level_or_ahead hmore hne hstart hs hl hi
    · rw [resume_level_done hl hstart h hrem hev hnone]
      exact .adds (.of_eq hl' hi')
    · exact hend
  | case3 m start s hs next hn hlt ih =>
    intro m' hl hi
    obtain ⟨k, hk, hnext, hle⟩ := line?_block hne hlt.2 hs hn
    obtain ⟨s', h, hrem, hev, hl', hi'⟩ | ⟨-, hgo⟩ :=
      resume_level_or_ahead hmore hne hstart hs hl hi
    · rw [resume_level_next hl hstart h hrem hev hn hlt]
      exact ih (lines_add_ne_nil hne s) (Nat.le_of_lt hle) _ hl' hi'
    · exact hgo k next hk (Nat.le_of_eq hnext) hle
  | case4 m start s hs next hn hlt skipped hsk ih =>
    intro m' hl hi
    obtain ⟨k, hk, rfl, -⟩ := line?_block hne (by omega) hs hn
    obtain rfl : k = 0 := by omega
    obtain ⟨s', h, hrem, hev, hl', hi'⟩ | ⟨-, hgo⟩ :=
      resume_level_or_ahead hmore hne hstart hs hl hi
    · rw [resume_level_skip hl hstart h hrem hev hn, paragraphLength_append_of_lt (by
        rw [List.length_drop]; omega), if_pos (by rw [List.length_append]; omega)]
      exact ih (lines_add_ne_nil hne s) (Nat.le_of_lt hsk) _ hl' hi'
    · exact hgo 0 skipped hk (Nat.le_add_right _ _) hsk
  | case5 m start s hs next hn hlt skipped hsk =>
    intro m' hl hi
    obtain ⟨s', h, hrem, hev, hl', hi'⟩ | ⟨hend, -⟩ :=
      resume_level_or_ahead hmore hne hstart hs hl hi
    · obtain rfl : next = start := by
        obtain ⟨k, hk, rfl⟩ := block_of_line? hev hn
        have := (stop_le_of_remaining hs hk).1
        rw [List.length_drop] at this
        omega
      have hle := paragraphLength_le_append (before.drop next) more
      rw [resume_level_skip hl hstart h hrem hev hn]
      split
      · exact .of_adds (.of_eq hl' hi') (resume_behind (by omega))
      · exact .adds (.of_eq hl' hi')
    · exact hend

/-- A first pass that goes on to the lines behind, and the passes after it. -/
theorem merge_of_passed {source : List Line} {ps : List Placement}
    (h : sweep source (before ++ more) = .ok s')
    (hfound : s'.found = s.found ++ numbered s.found.length ps)
    (hps : ∀ p ∈ ps, before.length < p.stop ∧ p.Fits (before ++ more) source)
    (hev : s'.remaining ≠ .everything)
    (hk : ∀ k, s'.remaining = .block k → before.length ≤ k) (u a : Option Nat) :
    Follows before more (.ok (Merged.add ⟨source, [], u, a⟩ s))
      (merge source (before ++ more)) := by
  have hadds : (Merged.add ⟨source, [], u, a⟩ s).Adds (before ++ more) before.length
      (Merged.add ⟨source, [], s'.importLine, s'.attributeLine⟩ s') :=
    adds_of_passed rfl rfl (Nat.zero_le before.length) hfound hps
  rw [merge, h]
  simp only
  cases hn : s'.remaining.line? 0 (before ++ more).length with
  | none => exact .adds hadds
  | some next =>
    obtain ⟨k, hrem, rfl⟩ := block_of_line? hev hn
    have hle := hk k hrem
    exact .of_adds hadds (resume_behind (by omega))

/-- A merge with a file whose first lines are `before` follows the merge with these only. -/
theorem merge_follows (before source : List Line) (hmore : Starts more) :
    Follows before more (merge source before) (merge source (before ++ more)) := by
  by_cases hne : source = []
  · rw [merge_of_nil (.inl hne), merge_of_nil (.inl hne)]
    exact .adds (.of_eq rfl rfl)
  cases hs : sweep source before with
  | error e =>
    rw [merge, merge, hs, sweep_extend_error hmore hs]
    exact .fails
  | ok s =>
    cases sweep_extend hmore hne hs with
    | stopped h hheader =>
      rw [merge, merge, h]
      exact .of_header hheader
    | @level s' h hfound hrem hev =>
      rw [merge, merge, hs, h]
      simp only
      let m : Merged := ⟨source, [], s.importLine, s.attributeLine⟩
      let m' : Merged := ⟨source, [], s'.importLine, s'.attributeLine⟩
      obtain ⟨hl, hi⟩ :=
        add_congr (rfl : m'.lines = m.lines) (rfl : m'.inserted = m.inserted) hfound
      rw [hrem, line?_of_ne_everything hev 0 (before ++ more).length before.length]
      cases hn : s.remaining.line? 0 before.length with
      | none => exact .adds (.of_eq hl hi)
      | some next =>
        have hnext := line?_bounds hs (Nat.zero_le before.length) hn
        exact resume_follows hmore (lines_add_ne_nil hne s) hnext.2 _ hl hi
    | passed h hfound hps hev hk hopen =>
      have hfollows := merge_of_passed h hfound hps hev hk s.importLine s.attributeLine
      rw [merge, hs]
      simp only
      cases hn : s.remaining.line? 0 before.length with
      | none => exact hfollows
      | some next =>
        by_cases hev' : s.remaining = .everything
        · -- there was no line in front
          obtain rfl : before.length = next := by simpa [hev', Remaining.line?] using hn
          refine follows_of_attributes (fun l hl => ?_) (.inr fun header hmem => ?_) hfollows
          · rw [List.drop_of_length_le (Nat.le_succ _)] at hl
            cases hl
          · rw [List.getElem?_eq_none (Nat.le_refl _)] at hmem
            cases hmem
        · obtain ⟨k, hrem, rfl⟩ := block_of_line? hev' hn
          have hlt := (stop_le_of_remaining hs hrem).1
          exact follows_of_open (hopen k hrem) (Nat.le_refl _) (by omega) hfollows

end Follows

/-! ## The mark -/

theorem mem_of_contains {word : String} {l : Line} (h : contains word l = true) :
    ∀ c ∈ word.toList, c ∈ l := by
  intro c hc
  obtain ⟨⟨a, b⟩, hab⟩ := Option.isSome_iff_exists.1 h
  rw [cutAt?_eq_some hab]
  exact List.mem_append_left _ (List.mem_append_right _ hc)

/-- Only a sigma is written by what stands around it. -/
theorem lowerAt_of_ne_sigma {c : Char} (h : c ≠ 'Σ') (a b : List Char) :
    lowerAt a c b = lowerAt [] c [] := by
  simp [lowerAt, h]

/-- The blank characters as numbers. -/
def blankCodes : List Nat :=
  [9, 10, 11, 12, 13, 0x1c, 0x1d, 0x1e, 0x1f, 0x20, 0x85, 0xa0, 0x1680, 0x2000, 0x2001, 0x2002,
    0x2003, 0x2004, 0x2005, 0x2006, 0x2007, 0x2008, 0x2009, 0x200a, 0x2028, 0x2029, 0x202f, 0x205f,
    0x3000]

theorem mem_blankCodes {c : Char} (h : isBlank c = true) : c.toNat ∈ blankCodes := by
  unfold isBlank isBlankCode at h
  simp only [Bool.or_eq_true, Bool.and_eq_true, decide_eq_true_eq, beq_iff_eq] at h
  simp only [blankCodes, List.mem_cons, List.not_mem_nil, or_false]
  omega

theorem lowerAt_of_isBlank {c : Char} (h : isBlank c = true) (a b : List Char) :
    lowerAt a c b = [c] := by
  have hall : ∀ n ∈ blankCodes,
      Char.ofNat n ≠ 'Σ' ∧ lowerAt [] (Char.ofNat n) [] = [Char.ofNat n] := by
    decide +kernel
  obtain ⟨hne, hlower⟩ := hall c.toNat (mem_blankCodes h)
  rw [Char.ofNat_toNat] at hne hlower
  rw [lowerAt_of_ne_sigma hne, hlower]

theorem lower_of_isBlankLine {l : Line} (h : isBlankLine l = true) : lower l = l := by
  have hfrom : ∀ before, lowerFrom before l = l := by
    induction l with
    | nil => exact fun _ => rfl
    | cons c l ih =>
      intro before
      rw [isBlankLine, List.all_cons, Bool.and_eq_true] at h
      rw [lowerFrom, lowerAt_of_isBlank h.1, ih h.2]
      rfl
  exact hfrom []

/-- The mark is not blank, so it ends no paragraph. -/
theorem starts_of_marksInvariants {mark : Line} (h : marksInvariants mark = true)
    (rest : List Line) : Starts (mark :: rest) := by
  refine ⟨mark, rest, rfl, Bool.eq_false_iff.2 fun hblank => ?_⟩
  rw [marksInvariants, lower_of_isBlankLine hblank] at h
  have ht := List.all_eq_true.1 hblank 't' (mem_of_contains h 't' (by decide))
  exact absurd ht (by decide)

/-! ## Files with a mark -/

/-- Whether a merge gives an attribute decides what comes of it. -/
theorem agree_insertMerged {m m' : Merged} (h : m'.hasAttributes = m.hasAttributes) (w : World)
    (source output : String) :
    Agree (fun _ _ => True) (fun _ _ => True) (insertMerged source output (.ok m) w)
      (insertMerged source output (.ok m') w) := by
  have hsame : Agree (fun v v' => v' = v) (fun _ _ => True) (isAnnotatedFile source w)
      (isAnnotatedFile source w) := by
    cases isAnnotatedFile source w with
    | ok b v => exact ⟨rfl, rfl⟩
    | error e v => exact ⟨rfl, trivial⟩
  refine hsame.bind fun annotated v v' hv => ?_
  subst hv
  rw [Merged.output?, Merged.output?, h]
  cases m.hasAttributes with
  | false => exact ⟨rfl, trivial⟩
  | true =>
    exact (Effect.agree_writeText (Q := fun _ _ => True) rfl (fun _ _ => trivial) trivial).bind
      fun _ _ _ _ => ⟨rfl, trivial⟩

/-- A file whose lines from the mark on are left out, and the whole one. What is inserted for the
part is inserted for the whole; the whole may insert more only for blocks that are named at the mark
or below, and may fail only at a header there. If what it inserts more is empty, the two end in the
same way. A part that fails makes the whole fail, unless its last line is an attribute, so that a
block goes on at the mark. -/
theorem insertContracts_behind_mark {w : World} {source whole part output st ct pt : String}
    {mark : Line} {rest : List Line} (hs : w.disk.load source = .ok (.text st))
    (hw : w.disk.load whole = .ok (.text ct)) (hp : w.disk.load part = .ok (.text pt))
    (hsplit : linesOf ct = linesOf pt ++ mark :: rest) (hmark : marksInvariants mark = true) :
    (∀ m, merge (linesOf st) (linesOf pt) = .ok m →
      (insertContracts source whole output w = .error (.fault .unreadableHeader) w ∧
          ∃ header ∈ mark :: rest, headerOwner? header = none) ∨
        ∃ m' extra, merge (linesOf st) (linesOf ct) = .ok m' ∧
          m'.inserted = m.inserted ++ extra ∧
          (∀ i ∈ extra, i.NamedFrom (linesOf ct) (linesOf pt).length m'.lines) ∧
          ((∀ i ∈ extra, i.text = []) →
            Agree (fun _ _ => True) (fun _ _ => True) (insertContracts source part output w)
              (insertContracts source whole output w))) ∧
      ∀ e, merge (linesOf st) (linesOf pt) = .error e →
        insertContracts source part output w = .error (.fault .unreadableHeader) w ∧
          ((∀ l ∈ (linesOf pt).getLast?, isAttribute l = false) →
            insertContracts source whole output w = .error (.fault .unreadableHeader) w) := by
  rw [insertContracts_eq_insertMerged hs hw, insertContracts_eq_insertMerged hs hp]
  have hfollows := merge_follows (linesOf pt) (linesOf st)
    (starts_of_marksInvariants hmark rest)
  rw [← hsplit] at hfollows
  generalize merge (linesOf st) (linesOf ct) = x at hfollows ⊢
  refine ⟨fun m hm => ?_, fun e he => ?_⟩
  · rw [hm] at hfollows ⊢
    cases hfollows with
    | stopped hheader => exact .inl ⟨rfl, hheader⟩
    | @adds _ m' h =>
      obtain ⟨extra, hi, -, hnamed⟩ := h.inserted
      rw [← hsplit] at hnamed
      refine .inr ⟨m', extra, rfl, hi, hnamed, fun hempty => agree_insertMerged ?_ w _ _⟩
      have hextra : (extra.any fun i => !i.text.isEmpty) = false := by
        rw [List.any_eq_false]
        intro i hmem
        simp [hempty i hmem]
      rw [Merged.hasAttributes, Merged.hasAttributes, hi, List.any_append, hextra, Bool.or_false]
  · rw [he] at hfollows ⊢
    refine ⟨rfl, fun hlast => ?_⟩
    cases hfollows with
    | fails => rfl
    | within h =>
      obtain ⟨l, hl, hattr⟩ := h
      exact absurd hattr (by simp [hlast l hl])

/-- A section that names nothing of the source. -/
theorem insertContracts_behind_mark_unnamed :
    let st := "fn f() \x7b\x7d\n"
    let pt := "_None\n#[requires(true)]\nf\n\n"
    let ct := pt ++ "TYPE INVARIANTS\n\nimpl Invariant for S \x7b\n\x7d\n"
    let w := World.ofFiles [("s.rs", st), ("p.rs", pt), ("c.rs", ct)]
    ∃ m', merge (linesOf st) (linesOf ct) = .ok m' ∧
      m'.inserted = [⟨0, "#[requires(true)]\n".toList⟩] ∧
      Agree (fun _ _ => True) (fun _ _ => True) (insertContracts "s.rs" "p.rs" "o.rs" w)
        (insertContracts "s.rs" "c.rs" "o.rs" w) := by
  intro st pt ct w
  obtain ⟨hok, -⟩ := @insertContracts_behind_mark w "s.rs" "c.rs" "p.rs" "o.rs" st ct pt
    "TYPE INVARIANTS\n".toList
    ["\n".toList, "impl Invariant for S \x7b\n".toList, "\x7d\n".toList]
    (eq_ok_of_toOption (by decide +kernel)) (eq_ok_of_toOption (by decide +kernel))
    (eq_ok_of_toOption (by decide +kernel)) (by decide +kernel) (by decide +kernel)
  obtain ⟨m, hm, hmi⟩ := exists_of_toOption_any (x := merge (linesOf st) (linesOf pt))
    (p := fun m => decide (m.inserted = [⟨0, "#[requires(true)]\n".toList⟩])) (by decide +kernel)
  obtain ⟨m₂, hm₂, hmi₂⟩ := exists_of_toOption_any (x := merge (linesOf st) (linesOf ct))
    (p := fun m => decide (m.inserted = [⟨0, "#[requires(true)]\n".toList⟩])) (by decide +kernel)
  have hmi := of_decide_eq_true hmi
  have hmi₂ := of_decide_eq_true hmi₂
  rcases hok m hm with ⟨-, header, hmem, ho⟩ | ⟨m', extra, hm', hi, -, hagree⟩
  · have hall : ∀ header ∈ ["TYPE INVARIANTS\n".toList, "\n".toList,
        "impl Invariant for S \x7b\n".toList, "\x7d\n".toList], headerOwner? header ≠ none := by
      decide +kernel
    exact absurd ho (hall header hmem)
  · obtain rfl := Except.ok.inj (hm'.symm.trans hm₂)
    have hextra : extra = [] := by
      rw [hmi, hmi₂] at hi
      simpa using hi
    exact ⟨m', hm', hmi₂, hagree (by simp [hextra])⟩

/-- A comment of an invariant is inserted where the source has that function already, though nothing
stands before the mark. -/
theorem insertContracts_reads_section :
    let st := "impl Invariant for S \x7b\n    fn is_safe(&self) -> bool \x7b true \x7d\n\x7d\n"
    let ct := "TYPE INVARIANTS\n\nimpl Invariant for S \x7b\n    // not null\n" ++
      "    fn is_safe(&self) -> bool \x7b true \x7d\n\x7d\n"
    let w := World.ofFiles [("s.rs", st), ("p.rs", ""), ("c.rs", ct)]
    linesOf ct = linesOf "" ++ "TYPE INVARIANTS\n".toList :: (linesOf ct).tail ∧
      marksInvariants "TYPE INVARIANTS\n".toList = true ∧
      (∃ w', insertContracts "s.rs" "p.rs" "o.rs" w = .ok false w' ∧ w'.disk.has "o.rs" = false) ∧
      ∃ w', insertContracts "s.rs" "c.rs" "o.rs" w = .ok true w' ∧
        (w'.disk.read "o.rs").toOption = some (.text
          ("impl Invariant for S \x7b\n    // not null\n" ++
            "    fn is_safe(&self) -> bool \x7b true \x7d\n\x7d\n")) := by
  intro st ct w
  refine ⟨by decide +kernel, by decide +kernel, ?_, ?_⟩
  · obtain ⟨b, w', h, hb⟩ := Effect.exists_of_returns (x := insertContracts "s.rs" "p.rs" "o.rs")
      (w := w) (p := fun b w' => !b && !w'.disk.has "o.rs") (by decide +kernel)
    obtain ⟨rfl, hn⟩ : b = false ∧ w'.disk.has "o.rs" = false := by simpa using hb
    exact ⟨w', h, hn⟩
  · obtain ⟨b, w', h, hb⟩ := Effect.exists_of_returns (x := insertContracts "s.rs" "c.rs" "o.rs")
      (w := w) (p := fun b w' => b && decide ((w'.disk.read "o.rs").toOption = some (.text
        ("impl Invariant for S \x7b\n    // not null\n" ++
          "    fn is_safe(&self) -> bool \x7b true \x7d\n\x7d\n")))) (by decide +kernel)
    obtain ⟨rfl, hr⟩ := Bool.and_eq_true_iff.1 hb
    exact ⟨w', h, of_decide_eq_true hr⟩

end Covenant.Merge
