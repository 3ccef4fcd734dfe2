import Covenant.Contracts.Block

/-!
# One sweep over a source

A sweep walks down the source once and takes the blocks of the contracts file in order. It waits
at a block until it meets a line in a scope of the block's owner that declares the block's
function; then the block's attributes are to be inserted before that line, and the sweep goes on
with the next block.

Scopes are the open `impl` and `trait` items. A scope ends at a line that begins with the
indentation of its header and a closing brace. The line after a scope header is compared with the
block at once: it is not looked at as a header, a closing line, an import or an attribute.

On the way the sweep notes the first import and the first attribute line at the start of a line.
-/

namespace Covenant.Merge

open Text Header Contracts

/-- A text to insert before the line with this number. -/
structure Insertion where
  index : Nat
  text : Line
  deriving DecidableEq, Repr

/-- An open item: what it is for, and the indentation of its header. -/
structure Scope where
  owner : Name
  indent : Line
  deriving DecidableEq, Repr

/-- The owner of a function outside all items. -/
def noOwner : Name := "_None".toList

/-- The file itself, the scope that is always open. -/
def Scope.file : Scope := ⟨noOwner, []⟩

/-- What a sweep knows between two source lines. -/
structure State where
  /-- The open items, innermost first. -/
  scopes : List Scope
  /-- The block whose function is looked for. -/
  block : Option Block
  /-- The contract lines that have not been read. -/
  unread : List Line
  /-- How many contract lines have been read. -/
  read : Nat
  /-- The first line that begins with an import. -/
  importLine : Option Nat
  /-- The first line that begins with an attribute. -/
  attributeLine : Option Nat
  found : List Insertion
  deriving DecidableEq, Repr

/-- The sweep met a block header that names no owner; what it had found before is kept. -/
structure Unreadable where
  found : List Insertion
  deriving DecidableEq, Repr

namespace State

def start (contracts : List Line) : State := ⟨[], none, contracts, 0, none, none, []⟩

/-- The innermost open scope. -/
def scope (s : State) : Scope := s.scopes.head?.getD Scope.file

/-- Whether the next block has to be read: there is none, or the last one has an empty owner. -/
def wantsBlock (s : State) : Bool :=
  match s.block with
  | none => true
  | some b => b.owner.isEmpty

/-- Reads the header and the attribute lines of the next block. -/
def readBlock (s : State) : Except Unreadable State :=
  match s.unread with
  | [] => .ok s
  | header :: rest =>
    match headerOwner? header with
    | none => .error ⟨s.found⟩
    | some owner =>
      let attributes := rest.takeWhile isAttribute
      .ok { s with
        block := some ⟨s.read, owner, attributes⟩
        unread := rest.dropWhile isAttribute
        read := s.read + 1 + attributes.length }

/-- The state with a block to look for. -/
def withBlock (s : State) : Except Unreadable State :=
  if s.wantsBlock then s.readBlock else .ok s

/-- Opens the item with this owner whose header is `line`. An item that is complete on one line,
or that has the owner of the file, opens nothing. -/
def enter (s : State) (owner : Name) (line : Line) : State :=
  if endsWith "\x7d\n" line || owner == noOwner then s
  else { s with scopes := ⟨owner, indentation line⟩ :: s.scopes }

def leave (s : State) : State := { s with scopes := s.scopes.tail }

/-- The owner and the function of the line are those of the block. -/
def agrees (s : State) (b : Block) (nameLine line : Line) : Bool :=
  s.scope.owner == b.owner && declaredName (strip line) == declaredName (strip nameLine)

/-- Compares a source line with the block; if they agree, the block is done and the blank lines
after it are read. -/
def compare (s : State) (i : Nat) (line : Line) : State :=
  match s.block, s.unread with
  | some b, nameLine :: rest =>
    if s.agrees b nameLine line then
      { s with
        block := none
        unread := rest.dropWhile isBlankLine
        read := s.read + 1 + (rest.takeWhile isBlankLine).length
        found := s.found ++ [⟨i + s.found.length, indented (indentation line) b.attributes⟩] }
    else s
  | _, _ => s

end State

def Scope.closedBy (s : Scope) (line : Line) : Bool := (s.indent ++ ['}']).isPrefixOf line

def isImport (line : Line) : Bool := startsWith "use" line

/-- Whether the line begins with an attribute. -/
def isOuterAttribute (line : Line) : Bool := startsWith "#![" line || startsWith "#[" line

/-- The owner of a header whose generics do not end on its first line, by its second line. -/
def brokenOwner (line : Line) : Name := (owner? ("impl<> ".toList ++ strip line)).getD []

/-- What the next line is taken for. -/
inductive Mode
  /-- It may be anything. -/
  | free
  /-- It stands below a header and is compared at once. -/
  | slot
  /-- It goes on with a header whose generics do not end on its first line. -/
  | second
  deriving DecidableEq, Repr

/-- What a sweep does with a line. -/
inductive Action
  /-- No contract line is left. -/
  | idle
  /-- The line is the header of an item with this owner, or the rest of one. -/
  | enter (owner : Name)
  /-- The header goes on in the next line. -/
  | await
  | leave
  | noteImport
  | noteAttribute
  | compare
  deriving DecidableEq, Repr

/-- A sweep between two lines. -/
structure Walk where
  mode : Mode
  state : State
  deriving DecidableEq, Repr

/-- What a line is that may be anything. -/
def State.look (s : State) (line : Line) : Action :=
  if opensScope line then
    match owner? (strip line) with
    | some owner => .enter owner
    | none => .await
  else if s.scope.closedBy line then .leave
  else if isImport line && s.importLine.isNone then .noteImport
  else if isOuterAttribute line && s.attributeLine.isNone then .noteAttribute
  else .compare

/-- Acts on line `i`. -/
def State.perform (s : State) (i : Nat) (line : Line) : Action → Walk
  | .idle => ⟨.free, s⟩
  | .enter owner => ⟨.slot, s.enter owner line⟩
  | .await => ⟨.second, s⟩
  | .leave => ⟨.free, s.leave⟩
  | .noteImport => ⟨.free, { s with importLine := some i }⟩
  | .noteAttribute => ⟨.free, { s with attributeLine := some i }⟩
  | .compare => ⟨.free, s.compare i line⟩

namespace Walk

/-- The state in which the next line is met. -/
def ready (w : Walk) : Except Unreadable State :=
  match w.mode with
  | .free => w.state.withBlock
  | _ => .ok w.state

/-- What is done with the line when it is met in the state `s`. -/
def action (w : Walk) (s : State) (line : Line) : Action :=
  match w.mode with
  | .free => if w.state.unread.isEmpty then .idle else s.look line
  | .slot => .compare
  | .second => .enter (brokenOwner line)

/-- The walk after line `i`. -/
def step (w : Walk) (i : Nat) (line : Line) : Except Unreadable Walk :=
  w.ready.map fun s => s.perform i line (w.action s line)

end Walk

/-- Walks down the source lines from number `i`. -/
def walk : List Line → Nat → Walk → Except Unreadable Walk
  | [], _, w => .ok w
  | line :: rest, i, w =>
    match w.step i line with
    | .error e => .error e
    | .ok w => walk rest (i + 1) w

/-- Where a sweep ended in the contract lines. -/
inductive Remaining
  /-- The last block that was read has been placed. -/
  | nothing
  /-- The block that starts here has not been placed. -/
  | block (start : Nat)
  /-- There was no source line or no contract line to begin with. -/
  | everything
  deriving DecidableEq, Repr

structure Sweep where
  found : List Insertion
  importLine : Option Nat
  attributeLine : Option Nat
  remaining : Remaining
  deriving DecidableEq, Repr

/-- The first attribute line, unless the first import stands before it. -/
def State.attributeBeforeImport (s : State) : Option Nat :=
  match s.attributeLine, s.importLine with
  | some a, some u => if u < a then none else some a
  | a, _ => a

/-- Where a sweep ends that ends in this state. -/
def State.remaining (s : State) : Remaining :=
  match s.block with
  | none => .nothing
  | some b => .block b.start

def sweep (source contracts : List Line) : Except Unreadable Sweep :=
  if source.isEmpty || contracts.isEmpty then .ok ⟨[], none, none, .everything⟩
  else
    (walk source 0 ⟨.free, State.start contracts⟩).map fun w =>
      { found := w.state.found
        importLine := w.state.importLine
        attributeLine := w.state.attributeBeforeImport
        remaining := w.state.remaining }

/-- The number, in a file of `total` lines, of the line from which a sweep that began at line
`start` has to be taken up again. -/
def Remaining.line? (start total : Nat) : Remaining → Option Nat
  | .nothing => none
  | .block k => some (start + k)
  | .everything => some total

/-- Why a sweep from a given line has no result. -/
inductive SweepFault
  /-- There is no line with the number it should start from. -/
  | start (f : PlaceFault)
  | header (u : Unreadable)
  deriving DecidableEq, Repr

/-- A sweep with the contract lines from number `start` on; gives also the line from which it has
to be taken up again. -/
def sweepAt (source contracts : List Line) (start : Int) :
    Except SweepFault (Sweep × Option Int) :=
  if source.isEmpty then .ok (⟨[], none, none, .everything⟩, some contracts.length)
  else
    match linesFrom contracts start with
    | .error f => .error (.start f)
    | .ok view =>
      match sweep source view with
      | .error u => .error (.header u)
      | .ok s =>
        .ok (s,
          match s.remaining with
          | .nothing => none
          | .block k => some (start + k)
          | .everything => some contracts.length)

end Covenant.Merge
