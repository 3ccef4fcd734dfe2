import Covenant.LineSearch.Basic
import Covenant.Merge.Invariants
import Covenant.World.Basic

/-!
# Annotating a file

The merge on files: the attributes and imports first, then the type invariants. A source in which
no attribute was inserted is copied as it is before the invariants are added.
-/

namespace Covenant.Merge

open Text Contracts

/-- An argument of a command has fewer bytes than this. -/
def maxArgumentBytes : Nat := 131072

/-- Whether the file can be read and has contracts already. A path that the search takes for an
option gives the answer of a search with that option. -/
def isAnnotatedFile (path : String) : Effect Bool := do
  let w ← get
  if Disk.hasZeroByte path then Effect.fail (.disk .zeroByte)
  else if maxArgumentBytes ≤ path.utf8ByteSize then Effect.fail .argumentTooLong
  else if Path.looksLikeOption path then return LineSearch.succeedsWith w.disk w.input path
  else
    match w.disk.load path with
    | .ok c => return isAnnotated c.searched
    | .error _ => return false

def writeLines (path : String) (ls : List Line) : Effect Unit :=
  Effect.writeText path (String.ofList ls.flatten)

/-- Writes the source with the attributes of the contracts file to `output`, if there are any. -/
def insertContracts (source contracts output : String) : Effect Bool := do
  let sourceContent ← Effect.openFile source
  let contractsContent ← Effect.openFile contracts
  let sourceLines := lines (← Effect.decode sourceContent)
  let contractLines := lines (← Effect.decode contractsContent)
  match merge sourceLines contractLines with
  | .error _ => Effect.fail .unreadableHeader
  | .ok m =>
    match m.output? (isCorePath source) (← isAnnotatedFile source) with
    | none => return false
    | some ls =>
      writeLines output ls
      return true

/-- Adds the type invariants of the contracts file to `output`. -/
def appendInvariants (source contracts output : String) : Effect Unit := do
  let invariants := invariantSection (lines (← Effect.readText contracts).toList)
  if !invariants.isEmpty then
    Effect.appendText output (String.ofList (appendix invariants))
    let ls := lines (← Effect.readText output).toList
    writeLines output (importInvariants (isCorePath source) ls)

/-- Adds the type invariants of the contracts file to `output`, which starts as a copy of the
source unless attributes were inserted. -/
def insertInvariants (source contracts output : String) (attributes : Bool) : Effect Unit := do
  if !attributes || !(← get).disk.has output then
    Effect.copy source output
  appendInvariants source contracts output

def annotate (source contracts output : String) : Effect Unit := do
  let attributes ← insertContracts source contracts output
  insertInvariants source contracts output attributes

end Covenant.Merge
