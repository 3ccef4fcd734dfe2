import Covenant.Proofs.Sweep.Alike
import Covenant.Proofs.Sweep.Extend
import Covenant.Proofs.Sweep.Scan
import Covenant.Proofs.World.Effect

/-!
# Items on one line

An item that is complete on its first line opens nothing, but the line below it is compared at once,
as below any header. So such an item makes no difference before a line that would be compared anyway
(`transparent_of_compares`), and a line that would not be compared is taken for something else below
it: a header opens nothing, a brace closes nothing, an import or an attribute is not noted.
-/

namespace Covenant.Merge

open Text Header Contracts

/-! ## An item on one line -/

/-- The line is an item that is complete, with an owner that can be read off it. -/
structure IsOneLine (item : Line) : Prop where
  opensScope_eq : opensScope item = true
  endsWith_eq : endsWith "\x7d\n" item = true
  isSome_owner? : (owner? (strip item)).isSome = true

/-- A line may be added here: it is not taken for the rest of a header, and no block is placed at
it. -/
def Walk.Admits (w : Walk) (i : Nat) (item : Line) : Prop :=
  w.mode = .free ∨ w.mode = .slot ∧ w.state.wantsBlock = false ∧ w.placed? i item = none

/-- The line is compared when it is looked at, as long as a contract line is left. -/
def Walk.Compares (w : Walk) (line : Line) : Prop :=
  w.state.unread ≠ [] → ∀ s, w.ready = .ok s → s.look line = .compare

section Item

variable {item line : Line} {w : Walk} {i : Nat}

theorem action_of_free {s t : State} (hu : s.unread ≠ []) (line : Line) :
    Walk.action ⟨.free, s⟩ t line = t.look line := by
  simp [Walk.action, hu]

/-- The line below the item is compared at once. -/
theorem step_oneLine (hitem : IsOneLine item) (hm : w.mode = .free) (hu : w.state.unread ≠ [])
    {s : State} (hs : w.ready = .ok s) :
    w.step i item = .ok ⟨.slot, s⟩ ∧ w.placed? i item = none := by
  obtain ⟨owner, howner⟩ := Option.isSome_iff_exists.1 hitem.isSome_owner?
  have hact : w.action s item = .enter owner := by
    simp [Walk.action, hm, hu, State.look, hitem.opensScope_eq, howner]
  constructor
  · refine step_eq_ok_iff.2 ⟨s, hs, ?_⟩
    rw [hact, State.perform, State.enter, hitem.endsWith_eq, Bool.true_or, if_pos rfl]
  · simp [Walk.placed?, hs, hact]

/-- The walk compares the line in this state and does nothing else. -/
structure Walk.ComparesIn (w : Walk) (i : Nat) (line : Line) (t : State) : Prop where
  step_eq : w.step i line = .ok ⟨.free, t.compare i line⟩
  placed?_eq : w.placed? i line = t.placed? i line

theorem comparesIn_of_action {t : State} (hs : w.ready = .ok t)
    (hact : w.action t line = .compare) : w.ComparesIn i line t where
  step_eq := step_eq_ok_iff.2 ⟨t, hs, by rw [hact]; rfl⟩
  placed?_eq := by simp [Walk.placed?, hs, hact]

/-- Where nothing is looked for, a comparison has no effect. -/
theorem comparesIn_of_unread_nil {s : State} (hu : s.unread = []) :
    Walk.ComparesIn ⟨.free, s⟩ i line s := by
  obtain ⟨hstep, hnone⟩ := step_of_unread_nil hu i line
  have hplaced : s.placed? i line = none := by
    cases hb : s.block <;> simp [State.placed?, hb, hu]
  exact ⟨by rw [hstep, compare_of_placed?_eq_none hplaced], by rw [hnone, hplaced]⟩

/-- A line that is compared in the same state with an item above it and without. -/
theorem pair_of_comparesIn {u : Walk} {t : State} (hstep : w.step i item = .ok u)
    (hnone : w.placed? i item = none) (hw : w.ComparesIn i line t)
    (hu : u.ComparesIn (i + 1) line t) :
    Together Walk.Alike (w.step i line) (walk [item, line] i w) ∧
      placements [item, line] i w = (w.placed? i line).toList.map (Placement.moved 1) := by
  constructor
  · simp only [walk, hstep, hw.step_eq, hu.step_eq]
    exact .ok ⟨rfl, compare_alike (.refl t) i 1 line⟩
  · simp only [placements, hstep, hnone, hu.step_eq, hu.placed?_eq, hw.placed?_eq,
      placed?_alike (.refl t)]
    simp [Option.toList_map]

/-- An item and a line that is compared do what the line does. -/
theorem pair_alike (hitem : IsOneLine item) (hadmits : w.Admits i item) (hline : w.Compares line) :
    Together Walk.Alike (w.step i line) (walk [item, line] i w) ∧
      placements [item, line] i w = (w.placed? i line).toList.map (Placement.moved 1) := by
  obtain ⟨mode, s⟩ := w
  obtain hm | ⟨hm, hwants, hplaced⟩ := hadmits
  · obtain rfl : mode = .free := hm
    by_cases hu : s.unread = []
    · obtain ⟨hstep, hnone⟩ := step_of_unread_nil hu i item
      exact pair_of_comparesIn hstep hnone (comparesIn_of_unread_nil hu)
        (comparesIn_of_unread_nil hu)
    · cases hs : Walk.ready ⟨.free, s⟩ with
      | error e =>
        -- the item and the line are stopped by the same header
        simp only [walk, placements, Walk.step, Walk.placed?, hs, Except.map]
        exact ⟨.error e e, rfl⟩
      | ok t =>
        obtain ⟨hstep, hnone⟩ := step_oneLine hitem rfl hu hs
        have hact : Walk.action ⟨.free, s⟩ t line = .compare := by
          rw [action_of_free hu]
          exact hline hu t hs
        exact pair_of_comparesIn hstep hnone (comparesIn_of_action hs hact)
          (comparesIn_of_action rfl rfl)
  · obtain rfl : mode = .slot := hm
    have hitem : Walk.ComparesIn ⟨.slot, s⟩ i item s := comparesIn_of_action rfl rfl
    have hstep : Walk.step ⟨.slot, s⟩ i item = .ok ⟨.free, s⟩ := by
      rw [hitem.step_eq, compare_of_placed?_eq_none (hitem.placed?_eq ▸ hplaced)]
    refine pair_of_comparesIn hstep hplaced (comparesIn_of_action rfl rfl) ?_
    by_cases hu : s.unread = []
    · exact comparesIn_of_unread_nil hu
    · refine comparesIn_of_action (withBlock_of_not_wantsBlock hwants) ?_
      rw [action_of_free hu]
      exact hline hu s rfl

end Item

/-! ## Items that make no difference -/

/-- The placement in a source with one more line, which has number `n`. -/
def Placement.below (n : Nat) (p : Placement) : Placement :=
  { p with index := if n ≤ p.index then p.index + 1 else p.index }

theorem map_below_of_lt {n : Nat} {ps : List Placement} (h : ∀ p ∈ ps, p.index < n) :
    ps.map (Placement.below n) = ps := by
  refine (List.map_congr_left fun p hp => ?_).trans (List.map_id ps)
  rw [Placement.below, if_neg (Nat.not_le.2 (h p hp))]
  rfl

theorem map_below_of_le {n : Nat} {ps : List Placement} (h : ∀ p ∈ ps, n ≤ p.index) :
    ps.map (Placement.below n) = ps.map (Placement.moved 1) := by
  refine List.map_congr_left fun p hp => ?_
  rw [Placement.below, if_pos (h p hp)]
  rfl

theorem map_below_placements (above : List Line) (w : Walk) :
    (placements above 0 w).map (Placement.below above.length) = placements above 0 w := by
  refine map_below_of_lt fun p hp => ?_
  have := (index_of_mem_placements hp).2
  omega

/-- What is placed in the lines above stays, and what is placed below moves down. -/
theorem map_below_placements_append {above : List Line} {w v : Walk}
    (hw : walk above 0 w = .ok v) (ls : List Line) :
    (placements (above ++ ls) 0 w).map (Placement.below above.length) =
      placements above 0 w ++ (placements ls above.length v).map (Placement.moved 1) := by
  rw [placements_append_of_ok hw, List.map_append, map_below_placements, Nat.zero_add,
    map_below_of_le fun p hp => (index_of_mem_placements hp).1]

/-- The item makes no difference: the same blocks are placed at the same lines, and the sweep is
taken up again at the same block, if at all. -/
structure Transparent (above : List Line) (item line : Line) (below contracts : List Line) :
    Prop where
  placed_eq : placed (above ++ item :: line :: below) contracts =
    (placed (above ++ line :: below) contracts).map (Placement.below above.length)
  remaining_eq : (sweep (above ++ item :: line :: below) contracts).toOption.map Sweep.remaining =
    (sweep (above ++ line :: below) contracts).toOption.map Sweep.remaining

section Transparent

variable {item line : Line} {above below contracts : List Line}

theorem remaining_alike {s t : State} (h : s.Alike t) : t.remaining = s.remaining := by
  rw [State.remaining, State.remaining, h.block_eq]

theorem remaining_of_together {x y : Except Unreadable Walk} (h : Together Walk.Alike x y) :
    (y.map fun w => w.state.toSweep).toOption.map Sweep.remaining =
      (x.map fun w => w.state.toSweep).toOption.map Sweep.remaining := by
  cases h with
  | ok h => exact congrArg some (remaining_alike h.state)
  | error e f => rfl

/-- What an item and a line do together with the lines below. -/
theorem below_alike {w : Walk} {i : Nat} (hitem : IsOneLine item) (hadmits : w.Admits i item)
    (hline : w.Compares line) (below : List Line) :
    Together Walk.Alike (walk (line :: below) i w) (walk (item :: line :: below) i w) ∧
      placements (item :: line :: below) i w =
        (placements (line :: below) i w).map (Placement.moved 1) := by
  obtain ⟨htogether, hplaced⟩ := pair_alike hitem hadmits hline
  show Together _ _ (walk ([item, line] ++ below) i w) ∧ placements ([item, line] ++ below) i w = _
  obtain ⟨e, f, hw, hpair⟩ | ⟨v, u, hw, hpair, hvu⟩ := htogether.cases
  · have hlast : walk (line :: below) i w = .error e := by rw [walk, hw]
    have hps : placements (line :: below) i w = (w.placed? i line).toList := by
      simp [placements, hw]
    rw [walk_append_of_error hpair, hlast, placements_append_of_error hpair, hplaced, hps]
    exact ⟨.error e f, rfl⟩
  · have hlast : walk (line :: below) i w = walk below (i + 1) v := by rw [walk, hw]
    rw [walk_append_of_ok hpair, hlast, placements_append_of_ok hpair, placements_cons hw, hplaced,
      List.map_append]
    exact ⟨walk_alike hvu below (i + 1) 1, by rw [← placements_alike hvu below (i + 1) 1]; rfl⟩

/-- A one-line item makes no difference before a line that is compared. -/
theorem transparent_of_compares (hitem : IsOneLine item)
    (h : ∀ w, walk above 0 ⟨.free, State.start contracts⟩ = .ok w →
      w.Admits above.length item ∧ w.Compares line) :
    Transparent above item line below contracts := by
  let start : Walk := ⟨.free, State.start contracts⟩
  have key : Together Walk.Alike (walk (above ++ line :: below) 0 start)
      (walk (above ++ item :: line :: below) 0 start) ∧
      placements (above ++ item :: line :: below) 0 start =
        (placements (above ++ line :: below) 0 start).map (Placement.below above.length) := by
    cases hw : walk above 0 start with
    | error e =>
      rw [walk_append_of_error hw, walk_append_of_error hw, placements_append_of_error hw,
        placements_append_of_error hw, map_below_placements]
      exact ⟨.error e e, rfl⟩
    | ok w =>
      obtain ⟨hadmits, hline⟩ := h w hw
      obtain ⟨htogether, hps⟩ := below_alike hitem hadmits hline below
      rw [walk_append_of_ok hw, walk_append_of_ok hw, map_below_placements_append hw,
        placements_append_of_ok hw, Nat.zero_add, hps]
      exact ⟨htogether, rfl⟩
  refine ⟨key.2, ?_⟩
  by_cases hc : contracts = []
  · subst hc
    have hnil : ∀ ls, sweep ls [] = .ok ⟨[], none, none, .everything⟩ := by simp [sweep]
    rw [hnil, hnil]
  · rw [sweep_eq_walk (by simp) hc, sweep_eq_walk (by simp) hc]
    exact remaining_of_together key.1

end Transparent

/-! ## Items that make a difference -/

/-- The line is no header and no closing line, no import and no attribute, wherever it stands. -/
structure IsOrdinary (line : Line) : Prop where
  opensScope_eq : opensScope line = false
  head?_ne : (strip line).head? ≠ some '\x7d'
  isImport_eq : isImport line = false
  isOuterAttribute_eq : isOuterAttribute line = false

theorem IsOrdinary.compares {line : Line} {above contracts : List Line} {w : Walk}
    (h : IsOrdinary line) (hw : walk above 0 ⟨.free, State.start contracts⟩ = .ok w) :
    w.Compares line := by
  intro hu s hs
  have hstart : Walk.Follows ⟨.free, State.start contracts⟩ .start := ⟨rfl, rfl⟩
  have hfollows := (walk_follows (.inl hstart) hw).resolve_right fun hidle => hu hidle.2
  have hscope := scope_eq ((ready_frame hs).1.trans hfollows.scopes_eq)
  have hclosed : s.scope.closedBy line = false := by
    rw [hscope]
    exact closedBy_of_head?_ne (Scan.isBlank_scope_indent _) h.head?_ne
  simp [State.look, h.opensScope_eq, hclosed, h.isImport_eq, h.isOuterAttribute_eq]

/-- The block of a function outside all items, without attributes. -/
def fileBlock (nameLine : Line) : List Line := ["_None\n".toList, nameLine]

/-- A sweep that has read such a block up to its name. -/
def seeking (scopes : List Scope) (nameLine : Line) : State where
  scopes := scopes
  block := some ⟨0, noOwner, []⟩
  unread := [nameLine]
  read := 1
  importLine := none
  attributeLine := none
  found := []

section Changed

variable {item line : Line} {above below contracts : List Line}

theorem ready_start {nameLine : Line} (h : isAttribute nameLine = false) :
    Walk.ready ⟨.free, State.start (fileBlock nameLine)⟩ = .ok (seeking [] nameLine) := by
  have howner : headerOwner? "_None\n".toList = some noOwner := by decide
  show (State.start (fileBlock nameLine)).withBlock = _
  rw [withBlock_of_header rfl rfl howner]
  simp [h, State.start, seeking]

/-- Below an item a line is compared that is otherwise passed over: what is placed is not the same
if the line is the function that is looked for, or if the lines below it are met with another
state. -/
theorem placements_changed {w v : Walk} {s : State} {i : Nat} (hitem : IsOneLine item)
    (hm : w.mode = .free) (hu : w.state.unread ≠ []) (hs : w.ready = .ok s)
    (hpassed : w.placed? i line = none) (hv : w.step i line = .ok v)
    (hbelow : s.placed? (i + 1) line = none →
      placements below (i + 2) ⟨.free, s⟩ ≠ (placements below (i + 1) v).map (Placement.moved 1)) :
    placements (item :: line :: below) i w ≠
      (placements (line :: below) i w).map (Placement.moved 1) := by
  intro heq
  obtain ⟨hstep, hnone⟩ := step_oneLine (i := i) hitem hm hu hs
  have hslot : Walk.ComparesIn ⟨.slot, s⟩ (i + 1) line s := comparesIn_of_action rfl rfl
  rw [placements_cons hstep, placements_cons hslot.step_eq, placements_cons hv, hnone, hpassed,
    hslot.placed?_eq] at heq
  simp only [Option.toList_none, List.nil_append] at heq
  cases hp : s.placed? (i + 1) line with
  | none =>
    rw [hp, compare_of_placed?_eq_none hp] at heq
    exact hbelow hp heq
  | some p =>
    rw [hp] at heq
    have hindex : p.index = i + 1 := index_of_placed? (hslot.placed?_eq.trans hp)
    have hmem : p ∈ (placements below (i + 1) v).map (Placement.moved 1) := by
      rw [← heq]
      simp
    obtain ⟨q, hq, rfl⟩ := List.mem_map.1 hmem
    have := (index_of_mem_placements hq).1
    simp only [Placement.moved] at hindex
    omega

theorem not_transparent {w : Walk} (hw : walk above 0 ⟨.free, State.start contracts⟩ = .ok w)
    (h : placements (item :: line :: below) above.length w ≠
      (placements (line :: below) above.length w).map (Placement.moved 1)) :
    ¬ Transparent above item line below contracts := by
  intro htransparent
  have heq := htransparent.placed_eq
  unfold placed at heq
  rw [placements_append_of_ok hw, map_below_placements_append hw, Nat.zero_add] at heq
  exact h (List.append_cancel_left heq)

/-- The case of a line at the top of the source that is not compared there. -/
theorem not_transparent_top (nameLine : Line) (hitem : IsOneLine item)
    (hname : isAttribute nameLine = false) {a : Action} (ha : a ≠ .compare)
    (hlook : (seeking [] nameLine).look line = a)
    (hbelow : (seeking [] nameLine).placed? 1 line = none →
      placements below 2 ⟨.free, seeking [] nameLine⟩ ≠
        (placements below 1 ((seeking [] nameLine).perform 0 line a)).map (Placement.moved 1)) :
    ¬ Transparent [] item line below (fileBlock nameLine) := by
  have hready := ready_start hname
  have hact : Walk.action ⟨.free, State.start (fileBlock nameLine)⟩ (seeking [] nameLine) line =
      a := by
    rw [action_of_free (List.cons_ne_nil _ _), hlook]
  refine not_transparent rfl
    (placements_changed hitem rfl (List.cons_ne_nil _ _) hready ?_ ?_ hbelow)
  · simp [Walk.placed?, hready, hact, ha]
  · exact step_eq_ok_iff.2 ⟨_, hready, by rw [hact]; rfl⟩

/-- In an item a function outside all items is not found. -/
theorem placed?_seeking {scope : Scope} (h : scope.owner ≠ noOwner) (nameLine line : Line)
    (i : Nat) : (seeking [scope] nameLine).placed? i line = none := by
  have hag : (seeking [scope] nameLine).agrees ⟨0, noOwner, []⟩ nameLine line = false := by
    simp [State.agrees, State.scope, seeking, h]
  rw [State.placed?, seeking]
  exact if_neg (Bool.eq_false_iff.1 hag)

theorem placements_in_item {scope : Scope} (h : scope.owner ≠ noOwner) (nameLine line : Line)
    (i : Nat) : placements [line] i ⟨.free, seeking [scope] nameLine⟩ = [] := by
  have hready : Walk.ready ⟨.free, seeking [scope] nameLine⟩ = .ok (seeking [scope] nameLine) := rfl
  have hplaced : Walk.placed? ⟨.free, seeking [scope] nameLine⟩ i line = none := by
    simp [Walk.placed?, hready, placed?_seeking h]
  rw [placements, hplaced]
  cases Walk.step ⟨.free, seeking [scope] nameLine⟩ i line <;> rfl

/-- The line below the header of an item is passed over. -/
theorem step_below_header {scope : Scope} (h : scope.owner ≠ noOwner) (nameLine line : Line)
    (i : Nat) :
    Walk.step ⟨.slot, seeking [scope] nameLine⟩ i line = .ok ⟨.free, seeking [scope] nameLine⟩ ∧
      Walk.placed? ⟨.slot, seeking [scope] nameLine⟩ i line = none := by
  have hnone := placed?_seeking h nameLine line i
  obtain ⟨hstep, hplaced⟩ : Walk.ComparesIn ⟨.slot, seeking [scope] nameLine⟩ i line _ :=
    comparesIn_of_action rfl rfl
  rw [hstep, hplaced, compare_of_placed?_eq_none hnone]
  exact ⟨rfl, hnone⟩

/-- Below an item a header opens nothing, and the line below the header is looked at. -/
theorem not_transparent_header (hitem : IsOneLine item) (hline : opensScope line = true) :
    ∃ below contracts, ¬ Transparent [] item line below contracts := by
  have hname : isAttribute "f\n".toList = false := by decide
  cases howner : owner? (strip line) with
  | none =>
    -- the next line is the rest of the header, and opens the item
    have hlook : (seeking [] "f\n".toList).look line = .await := by
      simp [State.look, hline, howner]
    refine ⟨["A \x7b\n".toList, "x\n".toList, "fn f()\n".toList], _,
      not_transparent_top _ hitem hname (by decide) hlook fun _ => ?_⟩
    rw [State.perform]
    decide +kernel
  | some owner =>
    have hlook : (seeking [] "f\n".toList).look line = .enter owner := by
      simp [State.look, hline, howner]
    cases hopens : endsWith "\x7d\n" line || owner == noOwner with
    | true =>
      -- nothing is opened, but the next line is not looked at
      have henter : (seeking [] "f\n".toList).enter owner line = seeking [] "f\n".toList := by
        rw [State.enter, hopens, if_pos rfl]
      refine ⟨["impl A \x7b\n".toList, "x\n".toList, "fn f()\n".toList], _,
        not_transparent_top _ hitem hname (by simp) hlook fun _ => ?_⟩
      rw [State.perform, henter]
      decide +kernel
    | false =>
      have howner' : owner ≠ noOwner := by
        rintro rfl
        simp at hopens
      have henter : (seeking [] "f\n".toList).enter owner line =
          seeking [⟨owner, indentation line⟩] "f\n".toList := by
        rw [State.enter, hopens, if_neg Bool.false_ne_true]
        rfl
      refine ⟨["x\n".toList, "fn f()\n".toList], _,
        not_transparent_top _ hitem hname (by simp) hlook fun _ => ?_⟩
      have hscope : (⟨owner, indentation line⟩ : Scope).owner ≠ noOwner := howner'
      obtain ⟨hstep, hnone⟩ := step_below_header hscope "f\n".toList "x\n".toList 1
      rw [State.perform, henter, placements_cons hstep, hnone, placements_in_item hscope]
      decide +kernel

/-- Outside all items a line is an import, an attribute or compared. -/
theorem look_seeking (nameLine : Line) (hopens : opensScope line = false)
    (hhead : (strip line).head? ≠ some '\x7d') :
    (seeking [] nameLine).look line =
      if isImport line then .noteImport
      else if isOuterAttribute line then .noteAttribute else .compare := by
  have hclosed : (seeking [] nameLine).scope.closedBy line = false :=
    closedBy_of_head?_ne (fun c hc => by cases hc) hhead
  have himport : (seeking [] nameLine).importLine = none := rfl
  have hattr : (seeking [] nameLine).attributeLine = none := rfl
  simp [State.look, hopens, hclosed, himport, hattr]

/-- Below an item an import is not noted, but compared. -/
theorem not_transparent_import (hitem : IsOneLine item) (hopens : opensScope line = false)
    (hhead : (strip line).head? ≠ some '\x7d') (hline : isImport line = true) :
    ∃ below contracts, ¬ Transparent [] item line below contracts := by
  have hlook : (seeking [] line).look line = .noteImport := by
    rw [look_seeking line hopens hhead, if_pos hline]
  have hname : isAttribute line = false := by
    have hu : (strip line).head? = some 'u' :=
      head?_strip (by decide) (head?_of_startsWith (by decide) hline)
    rw [Bool.eq_false_iff]
    intro hattr
    rcases head?_of_isAttribute hattr with h | h <;> simp [hu] at h
  refine ⟨[], _, not_transparent_top line hitem hname (by decide) hlook fun hnone => ?_⟩
  -- the import is itself the line that is looked for
  have hfound : (seeking [] line).placed? 1 line ≠ none := by
    simp [seeking, State.placed?, State.agrees, State.scope, Scope.file]
  exact absurd hnone hfound

/-- Below an item an attribute is not noted, so the next one is. -/
theorem not_transparent_attribute (hitem : IsOneLine item) (hopens : opensScope line = false)
    (hhead : (strip line).head? ≠ some '\x7d') (himport : isImport line = false)
    (hline : isOuterAttribute line = true) :
    ∃ below contracts, ¬ Transparent [] item line below contracts := by
  have hlook : (seeking [] "pub #[a]\n".toList).look line = .noteAttribute := by
    rw [look_seeking _ hopens hhead, himport, if_neg Bool.false_ne_true, if_pos hline]
  have hname : isAttribute "pub #[a]\n".toList = false := by decide
  refine ⟨["#[a]\n".toList], _, not_transparent_top _ hitem hname (by decide) hlook fun _ => ?_⟩
  rw [State.perform]
  decide +kernel

theorem closedBy_indentation (hline : (strip line).head? = some '\x7d') (owner : Name) :
    Scope.closedBy ⟨owner, indentation line⟩ line = true := by
  have hsplit := indentation_append_stripLeft line
  have hstrip : strip line = strip (stripLeft line) := by
    conv => lhs; rw [← hsplit]
    exact strip_append_of_isBlank fun c hc => isBlank_of_mem_indentation hc
  cases hrest : stripLeft line with
  | nil =>
    rw [hstrip, hrest] at hline
    cases hline
  | cons c r =>
    have hblank : isBlank c = false := by
      have := List.head?_dropWhile_not isBlank line
      rw [show line.dropWhile isBlank = c :: r from hrest] at this
      exact this
    rw [hstrip, hrest, strip_cons_of_not_isBlank hblank] at hline
    obtain rfl : c = '\x7d' := Option.some.inj hline
    refine List.isPrefixOf_iff_prefix.2 ⟨r, ?_⟩
    rw [hrest] at hsplit
    rw [List.append_assoc]
    exact hsplit

/-- A walk into an item with the given indentation. -/
theorem walk_into {indent : Line} (h : ∀ c ∈ indent, isBlank c = true) :
    walk [indent ++ "impl A \x7b\n".toList, "x\n".toList] 0
        ⟨.free, State.start (fileBlock "f\n".toList)⟩ =
      .ok ⟨.free, seeking [⟨['A'], indent⟩] "f\n".toList⟩ := by
  have hready : Walk.ready ⟨.free, State.start (fileBlock "f\n".toList)⟩ = _ :=
    ready_start (by decide)
  have hstrip : strip (indent ++ "impl A \x7b\n".toList) = strip "impl A \x7b\n".toList :=
    strip_append_of_isBlank h
  have hopens : opensScope (indent ++ "impl A \x7b\n".toList) = true := by
    unfold opensScope
    rw [hstrip]
    decide
  have howner : owner? (strip (indent ++ "impl A \x7b\n".toList)) = some ['A'] := by
    rw [hstrip]
    decide
  have hends : endsWith "\x7d\n" (indent ++ "impl A \x7b\n".toList) = false := by
    rw [Bool.eq_false_iff]
    intro hends
    have hsuffix : "\x7d\n".toList <:+ "impl A \x7b\n".toList :=
      List.suffix_of_suffix_length_le (List.isSuffixOf_iff_suffix.1 hends)
        (List.suffix_append _ _) (by decide)
    revert hsuffix
    decide
  have hindent : indentation (indent ++ "impl A \x7b\n".toList) = indent := by
    rw [indentation, List.takeWhile_append_of_pos h]
    exact List.append_nil indent
  have hact : Walk.action ⟨.free, State.start (fileBlock "f\n".toList)⟩ (seeking [] "f\n".toList)
      (indent ++ "impl A \x7b\n".toList) = .enter ['A'] := by
    rw [action_of_free (List.cons_ne_nil _ _), State.look, if_pos hopens, howner]
  have henter : (seeking [] "f\n".toList).enter ['A'] (indent ++ "impl A \x7b\n".toList) =
      seeking [⟨['A'], indent⟩] "f\n".toList := by
    rw [State.enter, hends, if_neg (by decide), hindent]
    rfl
  refine walk_cons_eq_ok_iff.2 ⟨⟨.slot, seeking [⟨['A'], indent⟩] "f\n".toList⟩, ?_, ?_⟩
  · exact step_eq_ok_iff.2 ⟨_, hready, by rw [hact, State.perform, henter]⟩
  · have howner : (['A'] : Name) ≠ noOwner := by decide
    exact walk_cons_eq_ok_iff.2 ⟨_, (step_below_header howner _ _ _).1, rfl⟩

/-- Below an item a brace closes nothing. -/
theorem not_transparent_closing (hitem : IsOneLine item)
    (hline : (strip line).head? = some '\x7d') :
    ∃ above below contracts, (∀ w, walk above 0 ⟨.free, State.start contracts⟩ = .ok w →
      w.mode = .free) ∧ ¬ Transparent above item line below contracts := by
  have hblank : ∀ c ∈ indentation line, isBlank c = true := fun c => isBlank_of_mem_indentation
  have hwalk := walk_into hblank
  have hclosed := closedBy_indentation hline ['A']
  have howner : (['A'] : Name) ≠ noOwner := by decide
  let w : Walk := ⟨.free, seeking [⟨['A'], indentation line⟩] "f\n".toList⟩
  have hact : w.action w.state line = .leave := by
    rw [action_of_free (List.cons_ne_nil _ _), State.look, opensScope_of_closedBy hblank hclosed,
      if_neg Bool.false_ne_true]
    exact if_pos hclosed
  refine ⟨_, ["fn f()\n".toList], _, fun v hv => ?_, not_transparent hwalk ?_⟩
  · rw [hwalk] at hv
    obtain rfl := Except.ok.inj hv
    rfl
  · have hstep : w.step 2 line = .ok ⟨.free, seeking [] "f\n".toList⟩ :=
      step_eq_ok_iff.2 ⟨w.state, rfl, by rw [hact]; rfl⟩
    have hpassed : w.placed? 2 line = none := by
      have hready : w.ready = .ok w.state := rfl
      simp [Walk.placed?, hready, hact]
    refine placements_changed (s := w.state) hitem rfl (List.cons_ne_nil _ _) rfl hpassed hstep
      fun _ => ?_
    rw [placements_in_item howner]
    show [] ≠ (placements ["fn f()\n".toList] 3 ⟨.free, seeking [] "f\n".toList⟩).map _
    decide +kernel

/-- Before a line that is not ordinary an item can make a difference. -/
theorem exists_not_transparent (hitem : IsOneLine item) (hline : ¬ IsOrdinary line) :
    ∃ above below contracts, (∀ w, walk above 0 ⟨.free, State.start contracts⟩ = .ok w →
      w.mode = .free) ∧ ¬ Transparent above item line below contracts := by
  have htop : (∃ below contracts, ¬ Transparent [] item line below contracts) →
      ∃ above below contracts, (∀ w, walk above 0 ⟨.free, State.start contracts⟩ = .ok w →
        w.mode = .free) ∧ ¬ Transparent above item line below contracts := by
    rintro ⟨below, contracts, h⟩
    refine ⟨[], below, contracts, fun w hw => ?_, h⟩
    obtain rfl := Except.ok.inj hw
    rfl
  cases hopens : opensScope line with
  | true => exact htop (not_transparent_header hitem hopens)
  | false =>
    by_cases hhead : (strip line).head? = some '\x7d'
    · exact not_transparent_closing hitem hhead
    · cases himport : isImport line with
      | true => exact htop (not_transparent_import hitem hopens hhead himport)
      | false =>
        cases hattr : isOuterAttribute line with
        | true => exact htop (not_transparent_attribute hitem hopens hhead himport hattr)
        | false => exact absurd ⟨hopens, hhead, himport, hattr⟩ hline

end Changed

/-- An item on one line makes no difference wherever the line below it is compared. This is so in
every source, with every contracts file, just for the lines that are ordinary: before a header, a
closing line, an import or an attribute there is a place for an item that makes a difference. -/
theorem oneLine_transparent_iff {item : Line} (hitem : IsOneLine item) (line : Line) :
    (∀ above below contracts : List Line,
      (∀ w, walk above 0 ⟨.free, State.start contracts⟩ = .ok w →
        w.Admits above.length item ∧ w.Compares line) →
      Transparent above item line below contracts) ∧
    ((∀ above below contracts : List Line,
      (∀ w, walk above 0 ⟨.free, State.start contracts⟩ = .ok w → w.Admits above.length item) →
      Transparent above item line below contracts) ↔ IsOrdinary line) := by
  refine ⟨fun above below contracts h => transparent_of_compares hitem h, fun h => ?_, ?_⟩
  · refine Classical.byContradiction fun hline => ?_
    obtain ⟨above, below, contracts, hfree, hchanged⟩ := exists_not_transparent hitem hline
    exact hchanged (h above below contracts fun w hw => .inl (hfree w hw))
  · intro hline above below contracts h
    exact transparent_of_compares hitem fun w hw => ⟨h w hw, hline.compares hw⟩

/-- An item between two functions. -/
theorem oneLine_transparent_iff_function :
    let item := "impl A for B \x7b\x7d\n".toList
    let above := ["fn f() \x7b\x7d\n".toList]
    let line := "fn g() \x7b\x7d\n".toList
    let contracts := linesOf "_None\n#[x]\nf\n\n_None\n#[y]\ng\n"
    IsOneLine item ∧ IsOrdinary line ∧ Transparent above item line [] contracts ∧
      (placed (above ++ [line]) contracts).map Placement.index = [0, 1] ∧
      (placed (above ++ [item, line]) contracts).map Placement.index = [0, 2] := by
  intro item above line contracts
  have hitem : IsOneLine item := ⟨by decide, by decide, by decide⟩
  have hline : IsOrdinary line := ⟨by decide, by decide, by decide, by decide⟩
  have hmode : (walk above 0 ⟨.free, State.start contracts⟩).toOption.all
      fun w => w.mode = .free := by decide +kernel
  have hsame : Transparent above item line [] contracts := by
    refine (oneLine_transparent_iff hitem line).2.2 hline above [] contracts fun w hw => ?_
    rw [hw] at hmode
    exact .inl (of_decide_eq_true hmode)
  have hplaced : (placed (above ++ [line]) contracts).map (Placement.index ∘ Placement.below 1) =
    [0, 2] := by decide +kernel
  refine ⟨hitem, hline, hsame, by decide +kernel, ?_⟩
  rw [← hplaced, ← List.map_map]
  exact congrArg (List.map Placement.index) hsame.placed_eq

/-- An item before the header of another one, whose function is then not found. -/
theorem oneLine_hides_header :
    let item := "impl A for B \x7b\x7d\n".toList
    let source := linesOf "impl C \x7b\n    fn f() \x7b\n    \x7d\n\x7d\n"
    let contracts := linesOf "C\n#[requires(true)]\nf\n"
    IsOneLine item ∧ (placed source contracts).map Placement.index = [1] ∧
      placed (item :: source) contracts = [] := by
  intro item source contracts
  exact ⟨⟨by decide, by decide, by decide⟩, by decide +kernel, by decide +kernel⟩

end Covenant.Merge
