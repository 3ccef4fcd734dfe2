import Covenant.Contracts.Listing
import Covenant.Merge.Preamble

/-!
# Type invariants at the end of a file

The section of type invariants is appended to the file after an empty line, and their import goes
before the first import of the file, or to its top.
-/

namespace Covenant.Merge

open Text

/-- What is appended for a section of type invariants. -/
def appendix (section_ : List Line) : List Char := '\n' :: section_.flatten ++ ['\n']

/-- The import of type invariants; `core` says that the file is of the core library. -/
def invariantImport (core : Bool) : Line :=
  if core then "use crate::ub_checks::Invariant;\n\n".toList
  else "use core::ub_checks::Invariant;\n\n".toList

/-- The lines with the import of type invariants. -/
def importInvariants (core : Bool) (ls : List Line) : List Line :=
  insertAt ((ls.findIdx? isImport).getD 0) (invariantImport core) ls

end Covenant.Merge
