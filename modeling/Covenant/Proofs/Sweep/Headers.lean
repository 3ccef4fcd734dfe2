import Covenant.Merge.Passes
import Covenant.Proofs.Source.Owner
import Covenant.Proofs.Sweep.Alike
import Covenant.Proofs.Sweep.Extend
import Covenant.Proofs.World.Effect

/-!
# The block headers that a sweep reads

`headersRead` lists the contract lines that a sweep takes for block headers, by number. A sweep has
a result exactly if all of them name an owner (`sweepAt_isOk_iff`). They also say how far it got:
the lines that are not blank belong to their blocks up to a point, and none does from there on
(`State.Covered`). A sweep that ends without a block to look for got to the end of the contract
lines, unless it placed its last block at the last line of the source (`sweepAt_reads_all_iff`).
-/

namespace Covenant.Merge

open Text Header Contracts

/-- The contract line that is taken for a block header when the next source line is met. -/
def Walk.header? (w : Walk) : Option Nat :=
  if w.mode = .free ∧ w.state.wantsBlock = true ∧ w.state.unread ≠ [] then some w.state.read
  else none

/-- The contract lines that are taken for block headers on the way down the lines from number
`i`. -/
def headersFrom : List Line → Nat → Walk → List Nat
  | [], _, _ => []
  | line :: rest, i, w =>
    w.header?.toList ++
      match w.step i line with
      | .ok w => headersFrom rest (i + 1) w
      | .error _ => []

/-- The contract lines that a sweep takes for block headers, the one that stops it included. -/
def headersRead (source contracts : List Line) : List Nat :=
  headersFrom source 0 ⟨.free, State.start contracts⟩

/-- The line that names the function of the block with header `h`: the first one below the header
that is no attribute. -/
def nameAt (contracts : List Line) (h : Nat) : Nat :=
  h + 1 + ((contracts.drop (h + 1)).takeWhile isAttribute).length

/-- Line `k` belongs to the block with header `h`. -/
def InBlock (contracts : List Line) (h k : Nat) : Prop := h ≤ k ∧ k ≤ nameAt contracts h

section Walks

variable {contracts ls source : List Line} {line : Line} {hs : List Nat} {i : Nat} {s t : State}
  {w v : Walk}

theorem headersFrom_cons (h : w.step i line = .ok v) (rest : List Line) :
    headersFrom (line :: rest) i w = w.header?.toList ++ headersFrom rest (i + 1) v := by
  rw [headersFrom, h]

theorem header?_eq_some_iff {k : Nat} :
    w.header? = some k ↔ w.mode = .free ∧ w.state.wantsBlock = true ∧ w.state.read = k ∧
      ∃ header rest, w.state.unread = header :: rest := by
  rw [Walk.header?, ← List.ne_nil_iff_exists_cons]
  split
  · next h => simp [h]
  · next h =>
    refine ⟨fun hnone => (Option.some_ne_none _ hnone.symm).elim, ?_⟩
    exact fun ⟨hm, hw, _, hne⟩ => absurd ⟨hm, hw, hne⟩ h

/-! ## Headers that stop a walk -/

theorem getElem?_read {header : Line} {rest : List Line} (hs : s.Reads contracts)
    (hu : s.unread = header :: rest) : contracts[s.read]? = some header := by
  rw [← List.head?_drop, ← hs.unread_eq, hu, List.head?_cons]

theorem drop_read_succ {header : Line} {rest : List Line} (hs : s.Reads contracts)
    (hu : s.unread = header :: rest) : contracts.drop (s.read + 1) = rest := by
  rw [← List.drop_drop, ← hs.unread_eq, hu, List.drop_one, List.tail_cons]

/-- The header that is read names an owner. -/
def NamesOwner (contracts : List Line) (k : Nat) : Prop :=
  ∀ header, contracts[k]? = some header → headerOwner? header ≠ none

theorem step_isOk_iff (i : Nat) (line : Line) (hw : w.state.Reads contracts) :
    (∃ v, w.step i line = .ok v) ↔ ∀ k ∈ w.header?, NamesOwner contracts k := by
  constructor
  · rintro ⟨v, hv⟩ k hk header hheader hnone
    obtain ⟨hm, hwants, rfl, header', rest, hu⟩ := header?_eq_some_iff.1 hk
    obtain rfl : header' = header := Option.some.inj ((getElem?_read hw hu).symm.trans hheader)
    rw [step_eq_error_iff.2 ⟨hm, hwants, rfl, header', rest, hu, hnone⟩] at hv
    cases hv
  · intro h
    cases hstep : w.step i line with
    | ok v => exact ⟨v, rfl⟩
    | error e =>
      obtain ⟨hm, hwants, -, header, rest, hu, hnone⟩ := step_eq_error_iff.1 hstep
      have hk : w.state.read ∈ w.header? :=
        header?_eq_some_iff.2 ⟨hm, hwants, rfl, header, rest, hu⟩
      exact absurd hnone (h _ hk header (getElem?_read hw hu))

theorem walk_isOk_iff (hw : w.state.Reads contracts) :
    (∃ v, walk ls i w = .ok v) ↔ ∀ k ∈ headersFrom ls i w, NamesOwner contracts k := by
  induction ls generalizing i w with
  | nil => simp [walk, headersFrom]
  | cons line rest ih =>
    cases hstep : w.step i line with
    | error e =>
      have hno : ¬ ∃ v, w.step i line = .ok v := by simp [hstep]
      rw [walk, headersFrom, hstep, List.append_nil]
      simp only [Option.mem_toList, ← Option.mem_def, ← step_isOk_iff i line hw,
        hno, reduceCtorEq, exists_false]
    | ok u =>
      have hhere := (step_isOk_iff i line hw).1 ⟨u, hstep⟩
      rw [headersFrom_cons hstep, walk, hstep, ih (step_reads hw hstep).1]
      simp only [List.mem_append, Option.mem_toList, or_imp, forall_and]
      exact ⟨fun h => ⟨hhere, h⟩, And.right⟩

theorem sweep_isOk_iff (hsource : source ≠ []) :
    (∃ s, sweep source contracts = .ok s) ↔
      ∀ k ∈ headersRead source contracts, NamesOwner contracts k := by
  rw [headersRead, ← walk_isOk_iff (start_reads contracts)]
  by_cases hcontracts : contracts = []
  · subst hcontracts
    obtain ⟨v, hv, -⟩ := walk_of_used_up source 0 (w := ⟨.free, State.start []⟩) rfl
    simp [hv, sweep]
  · have hne : (source.isEmpty || contracts.isEmpty) = false := by simp [hsource, hcontracts]
    rw [sweep, hne, if_neg Bool.false_ne_true]
    cases walk source 0 ⟨.free, State.start contracts⟩ <;> simp [Except.map]

/-! ## How far the headers reach -/

/-- How many contract lines belong to what has been read: all that have been read, and the line
that the next source lines are compared with. -/
def State.reach (s : State) : Nat :=
  match s.block with
  | some _ => s.read + 1
  | none => s.read

/-- Up to the reach of the state the lines belong to the blocks with these headers, except blank
ones, and from there on none does. -/
structure State.Covered (contracts : List Line) (hs : List Nat) (s : State) : Prop where
  below : ∀ k line, k < s.reach → contracts[k]? = some line → isBlankLine line = false →
    ∃ h ∈ hs, InBlock contracts h k
  above : ∀ h ∈ hs, nameAt contracts h < s.reach

theorem reach_of_some {b : Block} (h : s.block = some b) : s.reach = s.read + 1 := by
  rw [State.reach, h]

theorem reach_of_none (h : s.block = none) : s.reach = s.read := by
  rw [State.reach, h]

theorem read_le_reach (s : State) : s.read ≤ s.reach ∧ s.reach ≤ s.read + 1 := by
  cases hb : s.block with
  | none => rw [reach_of_none hb]; omega
  | some b => rw [reach_of_some hb]; omega

theorem State.Covered.congr (h : s.Covered contracts hs) (hb : t.block = s.block)
    (hr : t.read = s.read) : t.Covered contracts hs := by
  have hreach : t.reach = s.reach := by rw [State.reach, State.reach, hb, hr]
  exact ⟨fun k line hk => h.below k line (hreach ▸ hk), fun k hk => hreach ▸ h.above k hk⟩

theorem start_covered (contracts : List Line) : (State.start contracts).Covered contracts [] where
  below _ _ hk := absurd hk (Nat.not_lt_zero _)
  above _ hk := absurd hk List.not_mem_nil

/-- The block whose header is the next line to be read covers its own lines. -/
theorem State.Covered.concat (h : s.Covered contracts hs)
    (hreach : t.reach = nameAt contracts s.read + 1) : t.Covered contracts (hs ++ [s.read]) := by
  have hread := read_le_reach s
  have hname : s.read + 1 ≤ nameAt contracts s.read := Nat.le_add_right _ _
  refine ⟨fun k line hk hline hblank => ?_, fun k hk => ?_⟩
  · by_cases hlt : k < s.reach
    · obtain ⟨header, hmem, hin⟩ := h.below k line hlt hline hblank
      exact ⟨header, List.mem_append_left _ hmem, hin⟩
    · exact ⟨s.read, by simp, by omega, by omega⟩
  · rcases List.mem_append.1 hk with hk | hk
    · have := h.above k hk
      omega
    · obtain rfl := List.mem_singleton.1 hk
      omega

theorem ready_covered (hw : w.state.Reads contracts) (hc : w.state.Covered contracts hs)
    (h : w.ready = .ok t) : t.Covered contracts (hs ++ w.header?.toList) := by
  have hsame : w.header? = none → w.state.Covered contracts (hs ++ w.header?.toList) := by
    intro hnone
    rwa [hnone, Option.toList_none, List.append_nil]
  obtain ⟨hm, h⟩ | ⟨hm, rfl⟩ := ready_cases h
  · obtain ⟨rfl, hno⟩ | ⟨header, rest, owner, hwants, hu, -, rfl⟩ := withBlock_cases h
    · refine hsame (if_neg ?_)
      rintro ⟨-, hwants, hne⟩
      rcases hno with hno | hno
      · exact Bool.false_ne_true (hno.symm.trans hwants)
      · exact hne hno
    · have hsome : w.header? = some w.state.read :=
        header?_eq_some_iff.2 ⟨hm, hwants, rfl, header, rest, hu⟩
      rw [hsome, Option.toList_some]
      refine hc.concat ?_
      rw [reach_of_some rfl, nameAt, drop_read_succ hw hu]
  · exact hsame (if_neg fun h => hm h.1)

theorem of_getElem?_takeWhile {α : Type} {p : α → Bool} {l : List α} {k : Nat} {x : α}
    (hk : k < (l.takeWhile p).length) (hx : l[k]? = some x) : p x = true := by
  obtain ⟨below, hbelow⟩ := List.takeWhile_prefix (l := l) p
  rw [← hbelow, List.getElem?_append_left hk] at hx
  exact List.all_eq_true.1 List.all_takeWhile x (List.mem_of_getElem? hx)

/-- A block that is placed has been covered, and only blank lines follow up to the new reach. -/
theorem compare_covered {p : Placement} (hr : s.Reads contracts) (hc : s.Covered contracts hs)
    (hp : s.placed? i line = some p) : (s.compare i line).Covered contracts hs := by
  obtain ⟨rest, hb, hu, -, -, -, -, hcompare⟩ := placed?_eq_some hp
  have hreach := reach_of_some hb
  have hnew : (s.compare i line).reach =
      s.read + 1 + (rest.takeWhile isBlankLine).length := by
    rw [hcompare, reach_of_none rfl]
  refine ⟨fun k l hk hl hblank => ?_, fun h hh => ?_⟩
  · by_cases hlt : k < s.reach
    · exact hc.below k l hlt hl hblank
    · have hat : rest[k - (s.read + 1)]? = some l := by
        rw [← drop_read_succ hr hu, List.getElem?_drop,
          show s.read + 1 + (k - (s.read + 1)) = k by omega, hl]
      have htrue : isBlankLine l = true := of_getElem?_takeWhile (by omega) hat
      exact absurd (hblank.symm.trans htrue) Bool.false_ne_true
  · have := hc.above h hh
    omega

theorem step_covered (hw : w.state.Reads contracts) (hc : w.state.Covered contracts hs)
    (h : w.step i line = .ok v) : v.state.Covered contracts (hs ++ w.header?.toList) := by
  cases hp : w.placed? i line with
  | none =>
    obtain ⟨s, hs, hb, -, hr, -⟩ := step_of_not_placed? h hp
    exact (ready_covered hw hc hs).congr hb hr
  | some p =>
    obtain ⟨s, hs, hsp, rfl⟩ := step_of_placed? h hp
    exact compare_covered (ready_reads hw hs).1 (ready_covered hw hc hs) hsp

theorem walk_covered (hw : w.state.Reads contracts) (hc : w.state.Covered contracts hs)
    (h : walk ls i w = .ok v) : v.state.Covered contracts (hs ++ headersFrom ls i w) := by
  induction ls generalizing i w hs with
  | nil =>
    obtain rfl := Except.ok.inj h
    rwa [headersFrom, List.append_nil]
  | cons line rest ih =>
    obtain ⟨u, hu, hr⟩ := walk_cons_eq_ok_iff.1 h
    rw [headersFrom_cons hu, ← List.append_assoc]
    exact ih (step_reads hw hu).1 (step_covered hw hc hu) hr

/-- All lines but blank ones belong to the blocks if only blank ones are beyond the reach. -/
theorem State.Covered.all_iff (h : s.Covered contracts hs) :
    (∀ k line, contracts[k]? = some line → isBlankLine line = false →
      ∃ h ∈ hs, InBlock contracts h k) ↔
      ∀ line ∈ contracts.drop s.reach, isBlankLine line = true := by
  constructor
  · intro hall line hline
    obtain ⟨k, hk⟩ := List.mem_iff_getElem?.1 hline
    rw [List.getElem?_drop] at hk
    rw [← Bool.not_eq_false]
    intro hblank
    obtain ⟨header, hmem, -, hle⟩ := hall _ line hk hblank
    have := h.above header hmem
    omega
  · intro hall k line hk hblank
    refine h.below k line (Nat.lt_of_not_le fun hle => ?_) hk hblank
    have hline : line ∈ contracts.drop s.reach := by
      refine List.mem_of_getElem? (i := k - s.reach) ?_
      rw [List.getElem?_drop, show s.reach + (k - s.reach) = k by omega, hk]
    rw [hall line hline] at hblank
    cases hblank

/-! ## The last line of the source -/

/-- Below a header there is always a block to look for. -/
def Walk.Occupied (w : Walk) : Prop := w.mode ≠ .free → w.state.block ≠ none

theorem ready_occupied (hw : w.Occupied) (h : w.ready = .ok t) :
    t.block ≠ none ∨ w.mode = .free ∧ w.state.unread = [] ∧ t = w.state := by
  obtain ⟨hm, h⟩ | ⟨hm, rfl⟩ := ready_cases h
  · obtain ⟨rfl, hno⟩ | ⟨header, rest, owner, -, -, -, rfl⟩ := withBlock_cases h
    · rcases hno with hno | hno
      · left
        intro hnone
        simp [State.wantsBlock, hnone] at hno
      · exact .inr ⟨hm, hno, rfl⟩
    · exact .inl (Option.some_ne_none _)
  · exact .inl (hw hm)

theorem step_occupied (hw : w.Occupied) (h : w.step i line = .ok v) : v.Occupied := by
  obtain ⟨s, hs, rfl⟩ := step_eq_ok_iff.1 h
  intro hmode
  obtain hblock | ⟨hm, hu, -⟩ := ready_occupied hw hs
  · by_cases ha : w.action s line = .compare
    · exact absurd (by rw [ha]; rfl) hmode
    · rwa [(perform_frame ha).1]
  · have hidle : w.action s line = .idle := by simp [Walk.action, hm, hu]
    exact absurd (by rw [hidle]; rfl) hmode

/-- A step that places nothing and leaves no block to look for has nothing left to read. -/
theorem unread_of_not_placed? (hw : w.Occupied) (h : w.step i line = .ok v)
    (hp : w.placed? i line = none) (hv : v.state.block = none) : v.state.unread = [] := by
  obtain ⟨s, hs, hb, hu, -⟩ := step_of_not_placed? h hp
  obtain hblock | ⟨-, hnil, rfl⟩ := ready_occupied hw hs
  · exact absurd (hb.symm.trans hv) hblock
  · exact hu.trans hnil

/-- After a step that places a block the rest is blank if all below the block is. -/
theorem blank_of_placed? {p : Placement} (hw : w.state.Reads contracts)
    (h : w.step i line = .ok v) (hp : w.placed? i line = some p) :
    v.state.block = none ∧ ((∀ l ∈ contracts.drop v.state.reach, isBlankLine l = true) ↔
      ∀ l ∈ contracts.drop p.stop, isBlankLine l = true) := by
  obtain ⟨s, hs, hsp, rfl⟩ := step_of_placed? h hp
  obtain ⟨hsr, -⟩ := ready_reads hw hs
  obtain ⟨rest, hb, hu, -, -, -, -, hc⟩ := placed?_eq_some hsp
  have hread := hsr.read_eq _ hb
  have hrest := drop_read_succ hsr hu
  have hstop : contracts.drop p.stop = rest := by
    rw [← hrest, Placement.stop]
    congr 1
    omega
  simp only [hc]
  refine ⟨trivial, ?_⟩
  rw [reach_of_none rfl, hstop, ← List.drop_drop, hrest, drop_length_takeWhile]
  constructor
  · intro hall l hl
    rw [← List.takeWhile_append_dropWhile (p := isBlankLine) (l := rest)] at hl
    rcases List.mem_append.1 hl with hl | hl
    · exact List.all_eq_true.1 List.all_takeWhile l hl
    · exact hall l hl
  · exact fun hall l hl => hall l ((List.dropWhile_suffix isBlankLine).subset hl)

/-- The last step of a walk down the source, and what it places. -/
theorem exists_last_step (hsource : source ≠ [])
    (h : walk source 0 ⟨.free, State.start contracts⟩ = .ok w) :
    ∃ (v : Walk) (i : Nat) (line : Line), v.Occupied ∧ v.state.Reads contracts ∧
      v.step i line = .ok w ∧ ∀ p, v.placed? i line = some p ↔
        p ∈ placed source contracts ∧ p.index + 1 = source.length := by
  obtain ⟨init, line, rfl⟩ := List.eq_nil_or_concat source |>.resolve_left hsource
  rw [List.concat_eq_append] at h ⊢
  cases hinit : walk init 0 ⟨.free, State.start contracts⟩ with
  | error e =>
    rw [walk_append_of_error hinit] at h
    cases h
  | ok v =>
    rw [walk_append_of_ok hinit] at h
    obtain ⟨w', hstep, hnil⟩ := walk_cons_eq_ok_iff.1 h
    obtain rfl := Except.ok.inj hnil
    have hocc : v.Occupied := walk_induction (P := fun _ v => v.Occupied)
      (fun _ _ _ _ hw h => step_occupied hw h) hinit fun hmode => absurd rfl hmode
    refine ⟨v, _, line, hocc, (walk_reads (start_reads contracts) hinit).1, hstep, fun p => ?_⟩
    rw [placed, placements_append_of_ok hinit, placements_cons hstep, placements, List.append_nil,
      List.mem_append, Option.mem_toList, List.length_append, List.length_singleton]
    constructor
    · intro hp
      have := index_of_placed? hp
      exact ⟨.inr hp, by omega⟩
    · rintro ⟨hp | hp, hindex⟩
      · have := index_of_mem_placements hp
        omega
      · exact hp

/-- A walk that ends without a block to look for left only blank lines unread, unless it placed a
block at the last line of the source and lines that are not blank stand below it. -/
theorem blank_beyond_iff (hsource : source ≠ [])
    (h : walk source 0 ⟨.free, State.start contracts⟩ = .ok w) (hb : w.state.block = none) :
    (∀ l ∈ contracts.drop w.state.reach, isBlankLine l = true) ↔
      ∀ p ∈ placed source contracts, p.index + 1 = source.length →
        ∀ l ∈ contracts.drop p.stop, isBlankLine l = true := by
  obtain ⟨v, i, line, hocc, hreads, hstep, hlast⟩ := exists_last_step hsource h
  cases hp : v.placed? i line with
  | none =>
    have hunread := unread_of_not_placed? hocc hstep hp hb
    have hdrop : contracts.drop w.state.reach = [] := by
      rw [reach_of_none hb, ← (step_reads hreads hstep).1.unread_eq, hunread]
    rw [hdrop]
    refine ⟨fun _ p hmem hindex => ?_, fun _ l hl => absurd hl List.not_mem_nil⟩
    rw [(hlast p).2 ⟨hmem, hindex⟩] at hp
    cases hp
  | some p =>
    rw [(blank_of_placed? hreads hstep hp).2]
    constructor
    · intro hall q hmem hindex
      obtain rfl := Option.some.inj (hp.symm.trans ((hlast q).2 ⟨hmem, hindex⟩))
      exact hall
    · intro hall
      obtain ⟨hmem, hindex⟩ := (hlast p).1 hp
      exact hall p hmem hindex

/-- A walk that ends with a block to look for has placed nothing at the last line. -/
theorem index_ne_of_block (h : walk source 0 ⟨.free, State.start contracts⟩ = .ok w)
    (hb : w.state.block ≠ none) {p : Placement} (hp : p ∈ placed source contracts) :
    p.index + 1 ≠ source.length := by
  intro hindex
  have hsource : source ≠ [] := by
    rintro rfl
    cases hp
  obtain ⟨v, i, line, -, hreads, hstep, hlast⟩ := exists_last_step hsource h
  exact hb (blank_of_placed? hreads hstep ((hlast p).2 ⟨hp, hindex⟩)).1

end Walks

/-! ## Sweeps -/

section Sweeps

variable {source contracts view : List Line} {start : Int} {s : Sweep} {next : Option Int}

theorem linesFrom_isOk_iff :
    (∃ view, linesFrom contracts start = .ok view) ↔
      0 ≤ start ∨ -0x8000000000000000 ≤ start ∧ 0 ≤ contracts.length + start := by
  unfold linesFrom place
  by_cases hstart : 0 ≤ start
  · simp [hstart]
  · rw [if_neg hstart]
    by_cases hsmall : start < -0x8000000000000000 ∨ 0x8000000000000000 ≤ start
    · rw [if_pos hsmall]
      simp only [Except.map, reduceCtorEq, exists_false, false_iff]
      omega
    · rw [if_neg hsmall, if_neg hstart]
      by_cases hin : 0 ≤ contracts.length + start
      · rw [if_pos hin]
        simp only [Except.map, Except.ok.injEq, exists_eq', true_iff]
        omega
      · rw [if_neg hin]
        simp only [Except.map, reduceCtorEq, exists_false, false_iff]
        omega

/-- A sweep has a result exactly if there is no source line, or it starts within the contract lines
and no header that it reads has generics that do not end on it. On the side of the source nothing
stops it: a header whose generics do not end on its first line has an owner on its second, and
a word at the start of a line can always be cut off. -/
theorem sweepAt_isOk_iff (source contracts : List Line) (start : Int) :
    ((∃ r, sweepAt source contracts start = .ok r) ↔
      source = [] ∨
        (0 ≤ start ∨ -0x8000000000000000 ≤ start ∧ 0 ≤ contracts.length + start) ∧
        ∀ view, linesFrom contracts start = .ok view → ∀ k ∈ headersRead source view,
          ∀ header, view[k]? = some header → ¬ IsUnclosed (headerText header)) ∧
    (∀ line, owner? ("impl<> ".toList ++ strip line) = some (brokenOwner line)) ∧
    ∀ (word : String) (l : Line), startsWith word (strip l) = true →
      (secondField? word l).isSome = true := by
  refine ⟨?_, owner?_second, fun _ _ => isSome_secondField?_of_startsWith⟩
  rw [← linesFrom_isOk_iff]
  by_cases hsource : source = []
  · simp [hsource, sweepAt]
  · cases hview : linesFrom contracts start with
    | error f => simp [sweepAt, hsource, hview]
    | ok view =>
      have hsweep : (∃ r, sweepAt source contracts start = .ok r) ↔
          ∃ s, sweep source view = .ok s := by
        cases hs : sweep source view <;> simp [sweepAt, hsource, hview, hs]
      rw [hsweep, sweep_isOk_iff hsource]
      simp only [NamesOwner, Ne, headerOwner?_eq_none_iff, hsource, false_or, Except.ok.injEq,
        exists_eq', true_and, forall_eq']

/-- A block header with generics that go on in the next line stops the sweep, and with it the
merge. -/
theorem sweepAt_unclosed :
    let source := linesOf "fn f() \x7b\x7d\n"
    let contracts := linesOf "impl<T: Copy>\nS<T>\nf\n"
    (∀ r, sweepAt source contracts 0 ≠ .ok r) ∧ ∀ m, merge source contracts ≠ .ok m := by
  intro source contracts
  refine ⟨fun r hr => ?_, fun m hm => ?_⟩
  · have hnone : (sweepAt source contracts 0).toOption = none := by decide +kernel
    rw [hr] at hnone
    cases hnone
  · have hnone : (merge source contracts).toOption = none := by decide +kernel
    rw [hm] at hnone
    cases hnone

/-- Where a sweep ends that gives no line to be taken up from, or gives `-1`. -/
theorem exists_walk_of_end (hview : linesFrom contracts start = .ok view)
    (h : sweepAt source contracts start = .ok (s, next)) (hend : next.getD (-1) = -1) :
    source ≠ [] ∧ ∃ w, walk source 0 ⟨.free, State.start view⟩ = .ok w ∧
      (w.state.block = none ∧ next = none ∨
        ∃ b, w.state.block = some b ∧ next = some (-1) ∧ start + b.start = -1) := by
  have hlength : next ≠ some (contracts.length : Int) := by
    rintro rfl
    simp only [Option.getD_some] at hend
    omega
  have hsource : source ≠ [] := by
    rintro rfl
    exact hlength (congrArg Prod.snd (Except.ok.inj h)).symm
  refine ⟨hsource, ?_⟩
  have hne : source.isEmpty = false := by simpa using hsource
  cases hsweep : sweep source view with
  | error u =>
    simp only [sweepAt, hne, hview, hsweep, Bool.false_eq_true, if_false] at h
    cases h
  | ok t =>
    simp only [sweepAt, hne, hview, hsweep, Bool.false_eq_true, if_false] at h
    have hnext := congrArg Prod.snd (Except.ok.inj h)
    obtain ⟨-, rfl⟩ | ⟨-, -, w, hw, rfl⟩ := sweep_cases hsweep
    · exact absurd hnext.symm hlength
    · refine ⟨w, hw, ?_⟩
      cases hb : w.state.block with
      | none =>
        simp only [State.remaining, hb] at hnext
        exact .inl ⟨rfl, hnext.symm⟩
      | some b =>
        simp only [State.remaining, hb] at hnext
        subst hnext
        exact .inr ⟨b, rfl, congrArg some hend, hend⟩

theorem eq_of_place_neg {n i : Nat} {k : Int} (hk : k < 0) (h : place n k = .ok i) :
    0 ≤ n + k ∧ i = (n + k).toNat := by
  unfold place at h
  split at h
  · cases h
  · rw [if_neg (by omega)] at h
    split at h
    · next hn => exact ⟨hn, (Except.ok.inj h).symm⟩
    · cases h

/-- After the last contract line the contract lines follow once more. -/
theorem drop_of_last {k : Nat} (hview : linesFrom contracts start = .ok view)
    (hk : start + k = -1) : view.drop (k + 1) = contracts := by
  unfold linesFrom at hview
  rw [if_neg (by omega)] at hview
  cases hplace : place contracts.length start with
  | error f =>
    rw [hplace] at hview
    cases hview
  | ok i =>
    rw [hplace] at hview
    obtain rfl := Except.ok.inj hview
    obtain ⟨hle, hi⟩ := eq_of_place_neg (by omega) hplace
    refine List.drop_left' ?_
    rw [List.length_drop]
    omega

/-- What is left behind the block that a state looks for. -/
theorem drop_reach_of_block {s : State} {b : Block} (hs : s.Reads view) (hb : s.block = some b) :
    view.drop s.reach = ((view.drop (b.start + 1)).dropWhile isAttribute).tail := by
  obtain ⟨-, ⟨below, hbelow⟩, hattributes⟩ := hs.block_standsIn b hb
  have hread := hs.read_eq b hb
  have hunread : s.unread = below := by
    rw [hs.unread_eq, hread, show b.start + b.attributes.length + 1 =
      b.start + 1 + b.attributes.length by omega, ← List.drop_drop, ← hbelow, List.drop_left]
  have hname : below.dropWhile isAttribute = below := by
    cases below with
    | nil => rfl
    | cons l rest =>
      have := hs.not_isAttribute b hb l (by rw [hunread]; rfl)
      exact List.dropWhile_cons_of_neg (by simp [this])
  rw [reach_of_some hb, ← List.drop_drop, ← hs.unread_eq, hunread, ← hbelow,
    List.dropWhile_append_of_pos hattributes, hname, List.drop_one]

/-- A sweep that gives no line to be taken up from, or gives `-1`, has read all blocks from its
start on, unless it placed a block at the last line of the source and there are lines below it, or
it started from the end and stopped at a block whose header is the last line. -/
theorem sweepAt_reads_all_iff (hview : linesFrom contracts start = .ok view)
    (h : sweepAt source contracts start = .ok (s, next)) (hend : next.getD (-1) = -1) :
    (∀ k line, view[k]? = some line → isBlankLine line = false →
      ∃ header ∈ headersRead source view, InBlock view header k) ↔
      (∀ p ∈ placed source view, p.index + 1 = source.length →
        ∀ line ∈ view.drop p.stop, isBlankLine line = true) ∧
      (next = some (-1) →
        ∀ line ∈ (contracts.dropWhile isAttribute).tail, isBlankLine line = true) := by
  obtain ⟨hsource, w, hw, hblock⟩ := exists_walk_of_end hview h hend
  have hcovered : w.state.Covered view (headersRead source view) :=
    walk_covered (start_reads view) (start_covered view) hw
  rw [hcovered.all_iff]
  obtain ⟨hb, rfl⟩ | ⟨b, hb, rfl, hstart⟩ := hblock
  · rw [blank_beyond_iff hsource hw hb]
    simp
  · have hno : ∀ p ∈ placed source view, p.index + 1 ≠ source.length := fun p hp =>
      index_ne_of_block hw (by simp [hb]) hp
    rw [drop_reach_of_block (walk_reads (start_reads view) hw).1 hb, drop_of_last hview hstart]
    exact ⟨fun hall => ⟨fun p hp hindex => absurd hindex (hno p hp), fun _ => hall⟩,
      fun hall => hall.2 rfl⟩

/-- Two blocks, the second of which is placed at the last line of the source. -/
theorem sweepAt_reads_both :
    let source := linesOf "fn a() \x7b\x7d\nfn b() \x7b\x7d\n"
    let contracts := linesOf "_None\n#[x]\na\n\n_None\n#[y]\nb\n\n"
    ∃ s, sweepAt source contracts 0 = .ok (s, none) ∧
      ∀ k line, contracts[k]? = some line → isBlankLine line = false →
        ∃ header ∈ headersRead source contracts, InBlock contracts header k := by
  intro source contracts
  obtain ⟨⟨s, next⟩, hs, hnext⟩ := exists_of_toOption_any (x := sweepAt source contracts 0)
    (p := fun r => r.2.isNone) (by decide +kernel)
  obtain rfl : next = none := Option.isNone_iff_eq_none.1 hnext
  have hview : linesFrom contracts 0 = .ok contracts := rfl
  refine ⟨s, hs, (sweepAt_reads_all_iff hview hs rfl).2 ⟨?_, fun hlast => ?_⟩⟩
  · decide +kernel
  · cases hlast

/-- A block placed at the last line of the source ends the merge, and the block behind it is left
out though its function is there. -/
theorem merge_misses_block :
    let source := linesOf "fn b() \x7b\x7d\nfn a() \x7b\x7d\n"
    let contracts := linesOf "_None\n#[x]\na\n\n_None\n#[y]\nb\n"
    (∃ s, sweepAt source contracts 0 = .ok (s, none)) ∧ headersRead source contracts = [0] ∧
      nameAt contracts 0 = 2 ∧
      (∃ m, merge source contracts = .ok m ∧
        m.lines = ["fn b() \x7b\x7d\n", "#[x]\n", "fn a() \x7b\x7d\n"].map String.toList) ∧
      ∃ s, sweep source (contracts.drop 4) = .ok s ∧ s.found = [⟨0, "#[y]\n".toList⟩] := by
  intro source contracts
  refine ⟨?_, by decide +kernel, by decide +kernel, ?_, ?_⟩
  · obtain ⟨⟨s, next⟩, hs, hnext⟩ := exists_of_toOption_any (x := sweepAt source contracts 0)
      (p := fun r => r.2.isNone) (by decide +kernel)
    obtain rfl : next = none := Option.isNone_iff_eq_none.1 hnext
    exact ⟨s, hs⟩
  · obtain ⟨m, hm, hlines⟩ := exists_of_toOption_any (x := merge source contracts)
      (p := fun m => m.lines ==
        ["fn b() \x7b\x7d\n", "#[x]\n", "fn a() \x7b\x7d\n"].map String.toList)
      (by decide +kernel)
    exact ⟨m, hm, beq_iff_eq.1 hlines⟩
  · obtain ⟨s, hs, hfound⟩ := exists_of_toOption_any (x := sweep source (contracts.drop 4))
      (p := fun s => s.found == [⟨0, "#[y]\n".toList⟩]) (by decide +kernel)
    exact ⟨s, hs, beq_iff_eq.1 hfound⟩

end Sweeps

end Covenant.Merge
