import Covenant.Merge.Sweep

/-!
# Sweeps until every block has been tried

Blocks need not come in the order of the source, and some may fit nowhere. After a sweep that
stopped at a block, the insertions are made and a new sweep starts at that block, again from the
top of the source. A sweep that gets no further than the block it began with gives that block up:
the next one starts after the next blank line.
-/

namespace Covenant.Merge

open Text Contracts

/-- Puts `x` before the line with number `n`, or at the end. -/
def insertAt {α : Type} (n : Nat) (x : α) (ls : List α) : List α := ls.take n ++ x :: ls.drop n

/-- Makes the insertions one after the other. -/
def insertAll (ls : List Line) (insertions : List Insertion) : List Line :=
  insertions.foldl (fun ls i => insertAt i.index i.text ls) ls

/-- The source with the insertions of all sweeps. -/
structure Merged where
  lines : List Line
  /-- The insertions, in the order in which they were made. -/
  inserted : List Insertion
  /-- The first import of the source, as far as the first sweep got. -/
  importLine : Option Nat
  /-- The first attribute of the source before its first import, as far as the first sweep got. -/
  attributeLine : Option Nat
  deriving DecidableEq, Repr

def Merged.add (m : Merged) (s : Sweep) : Merged :=
  { m with lines := insertAll m.lines s.found, inserted := m.inserted ++ s.found }

def Merged.hasAttributes (m : Merged) : Bool := m.inserted.any fun i => !i.text.isEmpty

/-- Sweeps that begin at contract line `start`. -/
def resume (contracts : List Line) (m : Merged) (start : Nat) : Except Unreadable Merged :=
  match sweep m.lines (contracts.drop start) with
  | .error e => .error e
  | .ok s =>
    match s.remaining.line? start contracts.length with
    | none => .ok (m.add s)
    | some next =>
      if start < next ∧ start < contracts.length then resume contracts (m.add s) next
      else
        let skipped := start + paragraphLength (contracts.drop start)
        if skipped < contracts.length then resume contracts (m.add s) skipped else .ok (m.add s)
termination_by contracts.length - start
decreasing_by
  · omega
  · have : contracts.drop start ≠ [] := by
      rw [Ne, List.drop_eq_nil_iff]
      omega
    have := paragraphLength_pos this
    omega

/-- The source with the attributes of the contract blocks. -/
def merge (source contracts : List Line) : Except Unreadable Merged :=
  match sweep source contracts with
  | .error e => .error e
  | .ok s =>
    let m := Merged.add ⟨source, [], s.importLine, s.attributeLine⟩ s
    match s.remaining.line? 0 contracts.length with
    | none => .ok m
    | some next => resume contracts m next

end Covenant.Merge
