import Covenant.Proofs.Sweep.Placement

/-!
# Walks that place alike

What a walk places depends on the open items, the contract lines and whether an import and an
attribute have been noted, not on the numbers of the lines. Walks that agree in this place the same
blocks in the same lines, however far down these stand (`placements_alike`).
-/

namespace Covenant.Merge

open Text Header Contracts

/-! ## States and steps -/

/-- The states differ at most in what has been found and in the numbers of the lines noted. -/
structure State.Alike (s t : State) : Prop where
  scopes_eq : t.scopes = s.scopes
  block_eq : t.block = s.block
  unread_eq : t.unread = s.unread
  read_eq : t.read = s.read
  importLine_eq : t.importLine.isNone = s.importLine.isNone
  attributeLine_eq : t.attributeLine.isNone = s.attributeLine.isNone

/-- The walks take the next line for the same, in states that are alike. -/
structure Walk.Alike (w v : Walk) : Prop where
  mode_eq : v.mode = w.mode
  state : w.state.Alike v.state

/-- Both outcomes are errors, or both are results that are related. -/
inductive Together {α : Type} (R : α → α → Prop) :
    Except Unreadable α → Except Unreadable α → Prop
  | ok {a b : α} (h : R a b) : Together R (.ok a) (.ok b)
  | error (e f : Unreadable) : Together R (.error e) (.error f)

section Together

variable {α β : Type} {R : α → α → Prop} {S : β → β → Prop} {x y : Except Unreadable α}

theorem Together.cases (h : Together R x y) :
    (∃ e f, x = .error e ∧ y = .error f) ∨ ∃ a b, x = .ok a ∧ y = .ok b ∧ R a b := by
  cases h with
  | ok h => exact .inr ⟨_, _, rfl, rfl, h⟩
  | error e f => exact .inl ⟨e, f, rfl, rfl⟩

theorem Together.map {f g : α → β} (h : Together R x y) (hfg : ∀ a b, R a b → S (f a) (g b)) :
    Together S (x.map f) (y.map g) := by
  cases h with
  | ok h => exact .ok (hfg _ _ h)
  | error e f => exact .error e f

end Together

/-- The placement at a line that stands `d` lines further down. -/
def Placement.moved (d : Nat) (p : Placement) : Placement := { p with index := p.index + d }

section Alike

variable {s t : State} {w v : Walk} {line : Line}

theorem State.Alike.refl (s : State) : s.Alike s := ⟨rfl, rfl, rfl, rfl, rfl, rfl⟩

theorem withBlock_alike (h : s.Alike t) : Together State.Alike s.withBlock t.withBlock := by
  have hwants : t.wantsBlock = s.wantsBlock := by simp [State.wantsBlock, h.block_eq]
  cases hw : s.wantsBlock with
  | false =>
    rw [withBlock_of_not_wantsBlock hw, withBlock_of_not_wantsBlock (hwants.trans hw)]
    exact .ok h
  | true =>
    have hw' := hwants.trans hw
    cases hu : s.unread with
    | nil =>
      rw [withBlock_of_unread_nil hu, withBlock_of_unread_nil (h.unread_eq.trans hu)]
      exact .ok h
    | cons header rest =>
      have hu' := h.unread_eq.trans hu
      cases ho : headerOwner? header with
      | none =>
        simp only [State.withBlock, State.readBlock, hw, hw', hu, hu', ho, if_true]
        exact .error _ _
      | some owner =>
        rw [withBlock_of_header hw hu ho, withBlock_of_header hw' hu' ho]
        refine .ok ⟨h.scopes_eq, ?_, rfl, ?_, h.importLine_eq, h.attributeLine_eq⟩
        · rw [h.read_eq]
        · rw [h.read_eq]

theorem ready_alike (h : w.Alike v) : Together State.Alike w.ready v.ready := by
  obtain ⟨mode, s⟩ := w
  obtain ⟨mode', t⟩ := v
  obtain ⟨hmode, h⟩ := h
  obtain rfl : mode' = mode := hmode
  cases mode' with
  | free => exact withBlock_alike h
  | slot | second => exact .ok h

theorem action_alike (h : w.Alike v) (hs : s.Alike t) : v.action t line = w.action s line := by
  have hlook : t.look line = s.look line := by
    simp [State.look, State.scope, hs.scopes_eq, hs.importLine_eq, hs.attributeLine_eq]
  simp only [Walk.action, h.mode_eq, h.state.unread_eq, hlook]

/-- The same block is placed. -/
theorem placed?_alike (h : s.Alike t) (i d : Nat) (line : Line) :
    t.placed? (i + d) line = (s.placed? i line).map (Placement.moved d) := by
  cases hb : s.block with
  | none => simp [State.placed?, h.block_eq, hb]
  | some b =>
    cases hu : s.unread with
    | nil => simp [State.placed?, h.block_eq, h.unread_eq, hb, hu]
    | cons nameLine rest =>
      have hag : t.agrees b nameLine line = s.agrees b nameLine line := by
        simp only [State.agrees, State.scope, h.scopes_eq]
      simp only [State.placed?, h.block_eq, h.unread_eq, hb, hu, hag]
      cases s.agrees b nameLine line <;> rfl

theorem compare_alike (h : s.Alike t) (i d : Nat) (line : Line) :
    (s.compare i line).Alike (t.compare (i + d) line) := by
  have hplaced := placed?_alike h i d line
  cases hp : s.placed? i line with
  | none =>
    rw [hp] at hplaced
    rwa [compare_of_placed?_eq_none hp, compare_of_placed?_eq_none hplaced]
  | some p =>
    rw [hp] at hplaced
    obtain ⟨rest, -, hu, -, -, -, -, hc⟩ := placed?_eq_some hp
    obtain ⟨rest', -, hu', -, -, -, -, hc'⟩ := placed?_eq_some hplaced
    obtain rfl : rest' = rest := (List.cons.inj (hu'.symm.trans (h.unread_eq.trans hu))).2
    rw [hc, hc']
    exact ⟨h.scopes_eq, rfl, rfl, by rw [h.read_eq], h.importLine_eq, h.attributeLine_eq⟩

theorem perform_alike (h : s.Alike t) (i d : Nat) (line : Line) (a : Action) :
    (s.perform i line a).Alike (t.perform (i + d) line a) := by
  cases a with
  | idle | await => exact ⟨rfl, h⟩
  | compare => exact ⟨rfl, compare_alike h i d line⟩
  | leave => exact ⟨rfl, { h with scopes_eq := congrArg List.tail h.scopes_eq }⟩
  | noteImport => exact ⟨rfl, { h with importLine_eq := rfl }⟩
  | noteAttribute => exact ⟨rfl, { h with attributeLine_eq := rfl }⟩
  | enter owner =>
    refine ⟨rfl, ?_⟩
    simp only [State.perform, State.enter]
    split
    · exact h
    · exact { h with scopes_eq := by rw [h.scopes_eq] }

theorem step_alike (h : w.Alike v) (i d : Nat) (line : Line) :
    Together Walk.Alike (w.step i line) (v.step (i + d) line) := by
  refine (ready_alike h).map fun s t hst => ?_
  rw [action_alike h hst]
  exact perform_alike hst i d line _

theorem Walk.placed?_alike (h : w.Alike v) (i d : Nat) (line : Line) :
    v.placed? (i + d) line = (w.placed? i line).map (Placement.moved d) := by
  obtain ⟨e, f, hw, hv⟩ | ⟨s, t, hw, hv, hst⟩ := (ready_alike h).cases
  · simp [Walk.placed?, hw, hv]
  · simp only [Walk.placed?, hw, hv, action_alike h hst, Merge.placed?_alike hst]
    split <;> rfl

/-- The same blocks are placed in the lines below. -/
theorem placements_alike (h : w.Alike v) (ls : List Line) (i d : Nat) :
    placements ls (i + d) v = (placements ls i w).map (Placement.moved d) := by
  induction ls generalizing i w v with
  | nil => rfl
  | cons line rest ih =>
    have hplaced := Walk.placed?_alike h i d line
    obtain ⟨e, f, hw, hv⟩ | ⟨w', v', hw, hv, hnext⟩ := (step_alike h i d line).cases
    · simp [placements, hw, hv, hplaced, Option.toList_map]
    · rw [placements_cons hw, placements_cons hv, hplaced, List.map_append, Option.toList_map,
        ← ih hnext, show i + d + 1 = i + 1 + d by omega]

theorem walk_alike (h : w.Alike v) (ls : List Line) (i d : Nat) :
    Together Walk.Alike (walk ls i w) (walk ls (i + d) v) := by
  induction ls generalizing i w v with
  | nil => exact .ok h
  | cons line rest ih =>
    obtain ⟨e, f, hw, hv⟩ | ⟨w', v', hw, hv, hnext⟩ := (step_alike h i d line).cases
    · simp only [walk, hw, hv]
      exact .error e f
    · simp only [walk, hw, hv]
      rw [show i + d + 1 = i + 1 + d by omega]
      exact ih hnext (i + 1)

end Alike

/-! ## Lines above and below -/

section Append

variable {a b : List Line} {w v : Walk} {i : Nat} {e : Unreadable}

theorem walk_append_of_ok (h : walk a i w = .ok v) :
    walk (a ++ b) i w = walk b (i + a.length) v := by
  induction a generalizing i w with
  | nil =>
    obtain rfl := Except.ok.inj h
    rfl
  | cons line a ih =>
    obtain ⟨u, hu, hrest⟩ := walk_cons_eq_ok_iff.1 h
    rw [List.cons_append, walk, hu, List.length_cons, show i + (a.length + 1) = i + 1 + a.length by
      omega]
    exact ih hrest

theorem walk_append_of_error (h : walk a i w = .error e) : walk (a ++ b) i w = .error e := by
  induction a generalizing i w with
  | nil => cases h
  | cons line a ih =>
    rw [walk] at h
    rw [List.cons_append, walk]
    cases hu : w.step i line with
    | error f =>
      rw [hu] at h
      exact h
    | ok u =>
      rw [hu] at h
      exact ih h

theorem placements_append_of_ok (h : walk a i w = .ok v) :
    placements (a ++ b) i w = placements a i w ++ placements b (i + a.length) v := by
  induction a generalizing i w with
  | nil =>
    obtain rfl := Except.ok.inj h
    rfl
  | cons line a ih =>
    obtain ⟨u, hu, hrest⟩ := walk_cons_eq_ok_iff.1 h
    rw [List.cons_append, placements_cons hu, placements_cons hu, ih hrest, List.append_assoc,
      List.length_cons, show i + (a.length + 1) = i + 1 + a.length by omega]

theorem placements_append_of_error (h : walk a i w = .error e) :
    placements (a ++ b) i w = placements a i w := by
  induction a generalizing i w with
  | nil => cases h
  | cons line a ih =>
    rw [walk] at h
    cases hu : w.step i line with
    | error f => simp only [List.cons_append, placements, hu]
    | ok u =>
      rw [hu] at h
      rw [List.cons_append, placements_cons hu, placements_cons hu, ih h]

theorem index_of_placed? {line : Line} {p : Placement} (h : w.placed? i line = some p) :
    p.index = i := by
  unfold Walk.placed? at h
  cases hs : w.ready with
  | error e => simp [hs] at h
  | ok s =>
    by_cases hact : w.action s line = .compare
    · simp only [hs, hact, if_true] at h
      obtain ⟨-, -, -, -, -, hi, -⟩ := placed?_eq_some h
      exact hi
    · simp [hs, hact] at h

theorem index_of_mem_placements {ls : List Line} {p : Placement} (h : p ∈ placements ls i w) :
    i ≤ p.index ∧ p.index < i + ls.length := by
  induction ls generalizing i w with
  | nil => cases h
  | cons line rest ih =>
    rw [List.length_cons]
    rw [placements, List.mem_append, Option.mem_toList] at h
    obtain h | h := h
    · have := index_of_placed? h
      omega
    · cases hu : w.step i line with
      | error e =>
        rw [hu] at h
        cases h
      | ok u =>
        rw [hu] at h
        have := ih h
        omega

end Append

end Covenant.Merge
