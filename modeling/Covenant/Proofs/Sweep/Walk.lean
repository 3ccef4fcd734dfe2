import Covenant.Merge.Sweep

/-!
# Steps of a sweep

What one step of a walk does, said once for each part of it: reading the next block
(`withBlock_cases`), comparing a line (`placed?_eq_some`) and the step itself (`step_eq_ok_iff`).
The other modules argue from these and never open the definitions.
-/

namespace Covenant.Merge

open Text Header Contracts

/-! ## Reading a block -/

/-- Reading the next block leaves a state as it is, or takes a header and the attributes below
it. -/
theorem withBlock_cases {s t : State} (h : s.withBlock = .ok t) :
    (t = s ∧ (s.wantsBlock = false ∨ s.unread = [])) ∨
      ∃ header rest owner, s.wantsBlock = true ∧ s.unread = header :: rest ∧
        headerOwner? header = some owner ∧
        t = { s with
          block := some ⟨s.read, owner, rest.takeWhile isAttribute⟩
          unread := rest.dropWhile isAttribute
          read := s.read + 1 + (rest.takeWhile isAttribute).length } := by
  unfold State.withBlock at h
  split at h
  · next hw =>
    unfold State.readBlock at h
    split at h
    · next hu => exact .inl ⟨(Except.ok.inj h).symm, .inr hu⟩
    · next header rest hu =>
      split at h
      · cases h
      · next owner ho => exact .inr ⟨header, rest, owner, hw, hu, ho, (Except.ok.inj h).symm⟩
  · next hw => exact .inl ⟨(Except.ok.inj h).symm, .inl (by simpa using hw)⟩

theorem withBlock_of_unread_nil {s : State} (h : s.unread = []) : s.withBlock = .ok s := by
  simp [State.withBlock, State.readBlock, h]

theorem withBlock_of_not_wantsBlock {s : State} (h : s.wantsBlock = false) :
    s.withBlock = .ok s := by
  simp [State.withBlock, h]

theorem withBlock_of_header {s : State} {header : Line} {rest : List Line} {owner : Name}
    (hw : s.wantsBlock = true) (hu : s.unread = header :: rest)
    (ho : headerOwner? header = some owner) :
    s.withBlock = .ok { s with
      block := some ⟨s.read, owner, rest.takeWhile isAttribute⟩
      unread := rest.dropWhile isAttribute
      read := s.read + 1 + (rest.takeWhile isAttribute).length } := by
  simp [State.withBlock, State.readBlock, hw, hu, ho]

/-- Reading a block changes neither the scopes nor what has been found. -/
theorem withBlock_frame {s t : State} (h : s.withBlock = .ok t) :
    t.scopes = s.scopes ∧ t.found = s.found ∧ t.importLine = s.importLine ∧
      t.attributeLine = s.attributeLine := by
  obtain ⟨rfl, -⟩ | ⟨header, rest, owner, -, -, -, rfl⟩ := withBlock_cases h
  · exact ⟨rfl, rfl, rfl, rfl⟩
  · exact ⟨rfl, rfl, rfl, rfl⟩

/-! ## Comparing a line -/

/-- A block that has been placed: the line that names its function, and the source line that
declares it. -/
structure Placement where
  block : Block
  nameLine : Line
  /-- The number of the source line. -/
  index : Nat
  line : Line
  deriving DecidableEq, Repr

/-- The block that is placed when line `i` is compared. -/
def State.placed? (s : State) (i : Nat) (line : Line) : Option Placement :=
  match s.block, s.unread with
  | some b, nameLine :: _ => if s.agrees b nameLine line then some ⟨b, nameLine, i, line⟩ else none
  | _, _ => none

/-- The text that a placed block puts before its line. -/
def Placement.text (p : Placement) : Line := indented (indentation p.line) p.block.attributes

theorem compare_of_placed?_eq_none {s : State} {i : Nat} {line : Line}
    (h : s.placed? i line = none) : s.compare i line = s := by
  cases hb : s.block with
  | none => simp [State.compare, hb]
  | some b =>
    cases hu : s.unread with
    | nil => simp [State.compare, hb, hu]
    | cons nameLine rest =>
      have ha : s.agrees b nameLine line = false := by
        rw [Bool.eq_false_iff]
        intro ha
        simp [State.placed?, hb, hu, ha] at h
      simp [State.compare, hb, hu, ha]

/-- Comparing a line places a block if the block that is looked for agrees with the line. -/
theorem placed?_eq_some {s : State} {i : Nat} {line : Line} {p : Placement}
    (h : s.placed? i line = some p) :
    ∃ rest, s.block = some p.block ∧ s.unread = p.nameLine :: rest ∧
      s.scope.owner = p.block.owner ∧
      declaredName (strip line) = declaredName (strip p.nameLine) ∧ p.index = i ∧ p.line = line ∧
      s.compare i line =
        { s with
          block := none
          unread := rest.dropWhile isBlankLine
          read := s.read + 1 + (rest.takeWhile isBlankLine).length
          found := s.found ++ [⟨i + s.found.length, p.text⟩] } := by
  unfold State.placed? at h
  split at h
  · next b nameLine rest hb hu =>
    split at h
    · next ha =>
      obtain rfl := Option.some.inj h
      have hag := ha
      rw [State.agrees, Bool.and_eq_true, beq_iff_eq, beq_iff_eq] at ha
      refine ⟨rest, hb, hu, ha.1, ha.2, rfl, rfl, ?_⟩
      simp [State.compare, hb, hu, hag, Placement.text]
    · cases h
  · cases h

/-- A comparison changes neither the scopes nor what has been noted. -/
theorem compare_frame (s : State) (i : Nat) (line : Line) :
    (s.compare i line).scopes = s.scopes ∧ (s.compare i line).importLine = s.importLine ∧
      (s.compare i line).attributeLine = s.attributeLine := by
  cases hp : s.placed? i line with
  | none =>
    rw [compare_of_placed?_eq_none hp]
    exact ⟨rfl, rfl, rfl⟩
  | some p =>
    obtain ⟨rest, -, -, -, -, -, -, hc⟩ := placed?_eq_some hp
    rw [hc]
    exact ⟨rfl, rfl, rfl⟩

/-! ## A step -/

/-- The block that is placed when the walk meets line `i`. -/
def Walk.placed? (w : Walk) (i : Nat) (line : Line) : Option Placement :=
  match w.ready with
  | .ok s => if w.action s line = .compare then s.placed? i line else none
  | .error _ => none

theorem step_eq_ok_iff {w w' : Walk} {i : Nat} {line : Line} :
    w.step i line = .ok w' ↔
      ∃ s, w.ready = .ok s ∧ w' = s.perform i line (w.action s line) := by
  unfold Walk.step
  cases w.ready with
  | error e => simp [Except.map]
  | ok s => simp [Except.map, eq_comm]

/-- The state in which a line is met is that of the walk, with a block read in free mode. -/
theorem ready_cases {w : Walk} {s : State} (h : w.ready = .ok s) :
    w.mode = .free ∧ w.state.withBlock = .ok s ∨ w.mode ≠ .free ∧ s = w.state := by
  obtain ⟨mode, state⟩ := w
  cases mode with
  | free => exact .inl ⟨rfl, h⟩
  | slot => exact .inr ⟨by simp, (Except.ok.inj h).symm⟩
  | second => exact .inr ⟨by simp, (Except.ok.inj h).symm⟩

theorem ready_frame {w : Walk} {s : State} (h : w.ready = .ok s) :
    s.scopes = w.state.scopes ∧ s.found = w.state.found ∧ s.importLine = w.state.importLine ∧
      s.attributeLine = w.state.attributeLine := by
  obtain ⟨-, h⟩ | ⟨-, rfl⟩ := ready_cases h
  · exact withBlock_frame h
  · exact ⟨rfl, rfl, rfl, rfl⟩

/-- Only a comparison changes what is looked for and what has been found. -/
theorem perform_frame {s : State} {i : Nat} {line : Line} {a : Action} (ha : a ≠ .compare) :
    (s.perform i line a).state.block = s.block ∧ (s.perform i line a).state.unread = s.unread ∧
      (s.perform i line a).state.read = s.read ∧ (s.perform i line a).state.found = s.found := by
  cases a with
  | compare => exact absurd rfl ha
  | enter owner =>
    simp only [State.perform, State.enter]
    split <;> exact ⟨rfl, rfl, rfl, rfl⟩
  | idle | await | leave | noteImport | noteAttribute => exact ⟨rfl, rfl, rfl, rfl⟩

/-! ## Walks -/

theorem walk_cons_eq_ok_iff {line : Line} {rest : List Line} {i : Nat} {w w' : Walk} :
    walk (line :: rest) i w = .ok w' ↔
      ∃ v, w.step i line = .ok v ∧ walk rest (i + 1) v = .ok w' := by
  rw [walk]
  cases w.step i line with
  | error e => simp
  | ok v => simp

/-- What every step keeps is kept by a walk. -/
theorem walk_induction {P : Nat → Walk → Prop}
    (hstep : ∀ i w w' line, P i w → w.step i line = .ok w' → P (i + 1) w') {ls : List Line}
    {i : Nat} {w w' : Walk} (h : walk ls i w = .ok w') (h0 : P i w) : P (i + ls.length) w' := by
  induction ls generalizing i w with
  | nil =>
    obtain rfl := Except.ok.inj h
    exact h0
  | cons line rest ih =>
    obtain ⟨v, hv, hr⟩ := walk_cons_eq_ok_iff.1 h
    have := ih hr (hstep i w v line h0 hv)
    rwa [List.length_cons, show i + (rest.length + 1) = i + 1 + rest.length by omega]

end Covenant.Merge
