import Covenant.Place
import Covenant.Source.Header

/-!
# Blocks of a contracts file

A block is a header line that names an owner, the attribute lines below it, and a line that names
the function. Blocks are read from the unread rest of the file, one at a time.
-/

namespace Covenant.Contracts

open Text Header

/-- A block whose function line has not been reached. -/
structure Block where
  /-- Where the header stands in the file. -/
  start : Nat
  owner : Name
  attributes : List Line
  deriving DecidableEq, Repr

/-- Attribute lines and comments. -/
def isAttribute (l : Line) : Bool := startsWith "#" (strip l) || startsWith "//" (strip l)

/-- Whether a block header spells out the item, and not only the name of the owner. -/
def spellsItem (l : Line) : Bool :=
  startsWith "impl " l || startsWith "impl<" l || startsWith "trait " l ||
    startsWith "unsafe impl" l

def headerOwner? (l : Line) : Option Name :=
  let t := strip l
  owner? (if spellsItem t then t else "impl ".toList ++ t)

/-- How many lines there are up to and with the first blank one; all of them if none is blank. -/
def paragraphLength : List Line → Nat
  | [] => 0
  | l :: r => if isBlankLine l then 1 else paragraphLength r + 1

/-- The lines from number `start` on. A negative number counts from the end, and after the end
the lines follow once more from the first. -/
def linesFrom (ls : List Line) (start : Int) : Except PlaceFault (List Line) :=
  if 0 ≤ start then .ok (ls.drop start.toNat)
  else (place ls.length start).map fun k => ls.drop k ++ ls

/-- The number of the line after the first blank line from number `start` on, or of the end. -/
def nextParagraph (ls : List Line) (start : Int) : Except PlaceFault Int :=
  (linesFrom ls start).map fun view => start + paragraphLength view

/-- The attribute lines as they stand in front of a function with this indentation. -/
def indented (indent : Line) (attributes : List Line) : Line :=
  attributes.flatMap fun a => indent ++ strip a ++ ['\n']

theorem paragraphLength_le (ls : List Line) : paragraphLength ls ≤ ls.length := by
  induction ls with
  | nil => simp [paragraphLength]
  | cons l r ih =>
    rw [paragraphLength, List.length_cons]
    split <;> omega

theorem paragraphLength_pos {ls : List Line} (h : ls ≠ []) : 0 < paragraphLength ls := by
  cases ls with
  | nil => exact absurd rfl h
  | cons l r =>
    rw [paragraphLength]
    split <;> omega

end Covenant.Contracts
