import Covenant.Ini.Basic
import Covenant.Text.Search

/-!
# Reading a settings file

A file is read line by line. A line that is indented deeper than the option line above it
continues its value, and so does an empty line; a line that starts with `#` or `;` says nothing.
Any other line opens a section or sets an option: its name ends at the first `=` or `:`. Lines
before the first section header belong to the section that the reader starts with.
-/

namespace Covenant.Ini

open Text

/-- The options of a section while it is read; a value is the list of its rows. -/
abbrev OpenOptions := List (Line × Option (List Line))

/-- What has been read so far. -/
structure Reading where
  sections : List (Line × OpenOptions)
  defaults : OpenOptions
  /-- The section that is being read. -/
  current : Line
  /-- The option whose value may go on. -/
  option : Option Line
  /-- The indentation of the last header or option line. -/
  level : Nat
  /-- The lines with a value and no option name, last one first. -/
  unnamed : List (Nat × Line)
  deriving Repr

/-- The name of the section whose options stand in for missing ones. -/
def defaultName : Line := "DEFAULT".toList

namespace Reading

def start (name : Line) : Reading := ⟨[(name, [])], [], name, none, 0, []⟩

def options (r : Reading) : OpenOptions :=
  match r.sections.lookup r.current with
  | some os => os
  | none => r.defaults

def modifyOptions (r : Reading) (f : OpenOptions → OpenOptions) : Reading :=
  if (r.sections.lookup r.current).isSome then
    { r with sections := r.sections.map fun s => if s.1 == r.current then (s.1, f s.2) else s }
  else { r with defaults := f r.defaults }

/-- The rows of the option that may go on; none when it has no value. -/
def openRows? (r : Reading) : Option (List Line) :=
  (r.option.bind fun o => r.options.lookup o).join

def addRow (r : Reading) (row : Line) : Reading :=
  match r.option with
  | none => r
  | some o =>
    r.modifyOptions fun os =>
      os.map fun e => if e.1 == o then (e.1, e.2.map (· ++ [row])) else e

end Reading

/-- The name in a section header: what stands between the opening bracket and the last closing
one. -/
def sectionName? (value : Line) : Option Line :=
  match value with
  | '[' :: r =>
    match r.reverse.dropWhile (· != ']') with
    | _ :: c :: inner => some (c :: inner).reverse
    | _ => none
  | _ => none

/-- Whether the character ends an option name. -/
def isDelimiter (c : Char) : Bool := c == '=' || c == ':'

/-- The name and the value of an option line. -/
def splitOption (value : Line) : Line × Option Line :=
  let name := value.takeWhile fun c => !isDelimiter c
  match value.dropWhile fun c => !isDelimiter c with
  | [] => (name, none)
  | _ :: r => (stripRight name, some (strip r))

def Reading.openSection (r : Reading) (n : Nat) (name : Line) : Except Fault Reading :=
  if (r.sections.lookup name).isSome then .error (.duplicateSection n name)
  else if name == defaultName then .ok { r with current := name, option := none }
  else .ok { r with sections := r.sections ++ [(name, [])], current := name, option := none }

def Reading.setOption (r : Reading) (n : Nat) (line value : Line) : Except Fault Reading :=
  let (text, given) := splitOption value
  let name := lower text
  if (r.options.lookup name).isSome then .error (.duplicateOption n r.current name)
  else
    let r := r.modifyOptions fun os => os ++ [(name, given.map fun v => [v])]
    if name.isEmpty then .ok { r with option := none, unnamed := (n, line) :: r.unnamed }
    else .ok { r with option := some name }

/-- Reads line `n`. -/
def Reading.step (r : Reading) (n : Nat) (line : Line) : Except Fault Reading :=
  let value := strip line
  if startsWith "#" value || startsWith ";" value then .ok r
  else if value.isEmpty then .ok (if r.openRows?.isSome then r.addRow [] else r)
  else
    let level := (indentation line).length
    if r.option.isSome && r.level < level then
      if r.openRows?.isSome then .ok (r.addRow value) else .error .continuesNothing
    else
      let r := { r with level := level }
      match sectionName? value with
      | some name => r.openSection n name
      | none => r.setOption n line value

/-- Reads the lines, the first of which has number `n`. -/
def Reading.steps (r : Reading) (n : Nat) : List Line → Except Fault Reading
  | [] => .ok r
  | l :: ls =>
    match r.step n l with
    | .error e => .error e
    | .ok r => r.steps (n + 1) ls

def joinRows (rows : List Line) : Line := stripRight (List.intercalate ['\n'] rows)

/-- The options with their rows joined. -/
def closeOptions (os : OpenOptions) : Options := os.map fun e => (e.1, e.2.map joinRows)

/-- The settings in a text whose first lines belong to the section `name`. The header of that
section counts as line 1. -/
def parse (name : Line) (text : List Char) : Except Fault Document :=
  match (Reading.start name).steps 2 (lines text) with
  | .error e => .error e
  | .ok r =>
    if r.unnamed.isEmpty then
      .ok ⟨r.sections.map fun s => (s.1, closeOptions s.2), closeOptions r.defaults⟩
    else .error (.unnamedOptions r.unnamed.reverse)

end Covenant.Ini
