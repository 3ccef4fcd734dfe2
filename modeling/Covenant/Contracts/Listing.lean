import Covenant.Text.Blank
import Covenant.Text.Search
import Covenant.Text.Line
import Covenant.Text.Case

/-!
# Parts of a contracts text

The functions that a contracts text has blocks for, and its section of type invariants. A line
that has "type invariant" in it, in any case, divides the blocks from that section.
-/

namespace Covenant.Contracts

open Text

/-- Whether the line begins the section of type invariants. -/
def marksInvariants (l : Line) : Bool := contains "type invariant" (lower l)

/-- The section of type invariants: the lines after its mark, from the first that is not blank. -/
def invariantSection : List Line → List Line
  | [] => []
  | l :: r => if marksInvariants l then r.dropWhile isBlankLine else invariantSection r

/-- The lines that end a block, going down from a line whose predecessor is `previous`. Each blank
line lists the line before it; a blank first line lists `last`, the last line of the text. -/
def listedFrom (last : Line) : Option Line → List Line → List Line
  | _, [] => if isBlankLine last then [] else [last]
  | previous, l :: r =>
    if marksInvariants l then previous.toList.filter fun p => !isBlankLine p
    else if isBlankLine l then previous.getD last :: listedFrom last (some l) r
    else listedFrom last (some l) r

/-- The function lines of a contracts text. -/
def listedFunctions (text : List Char) : List Line :=
  if text.isEmpty then []
  else
    let ls := cells '\n' text
    listedFrom (ls.getLast?.getD []) none ls

end Covenant.Contracts
