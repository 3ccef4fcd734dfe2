import Covenant.Text.Blank
import Covenant.Text.Case
import Covenant.Text.Line
import Covenant.Text.Quoted

/-!
# Settings files

A settings file is a list of sections, each a list of options. An option may have no value. The
options of the default section stand in for those that a section does not have. Option names are
in lower case.
-/

namespace Covenant.Ini

open Text

/-- The options of a section, in the order in which they were read. -/
abbrev Options := List (Line × Option Line)

/-- Sections with their options, and the options of the default section. -/
structure Document where
  sections : List (Line × Options)
  defaults : Options
  deriving DecidableEq, Repr

/-- Why a settings file, or a value of it, cannot be read. -/
inductive Fault
  | duplicateSection (line : Nat) (name : Line)
  | duplicateOption (line : Nat) (name option : Line)
  /-- Lines that have a value and no option name. -/
  | unnamedOptions (lines : List (Nat × Line))
  /-- A line that continues the value of an option without a value. -/
  | continuesNothing
  /-- A percent sign that starts nothing; `rest` begins with it. -/
  | strayPercent (rest : Line)
  /-- A reference that is not complete; `rest` begins with it. -/
  | badReference (rest : Line)
  | unknownReference (option name raw key : Line)
  /-- A reference to an option without a value. -/
  | emptyReference
  | tooDeep (option name raw : Line)
  deriving DecidableEq, Repr

/-- How deep references may be nested. -/
def maxDepth : Nat := 10

/-- A line number, at least two places wide. -/
def lineNumber (n : Nat) : String := (if n < 10 then " " else "") ++ toString n

/-- A text in quotes. -/
def shown (l : Line) : String := String.ofList (quotedChars l)

/-- The place of a fault in the file. -/
def place (n : Nat) : String := "While reading from '<string>' [line " ++ lineNumber n ++ "]: "

def Fault.message : Fault → String
  | .duplicateSection n name => place n ++ "section " ++ shown name ++ " already exists"
  | .duplicateOption n name option =>
    place n ++ "option " ++ shown option ++ " in section " ++ shown name ++ " already exists"
  | .unnamedOptions ls =>
    "Source contains parsing errors: '<string>'" ++
      String.join (ls.map fun l => "\n\t[line " ++ lineNumber l.1 ++ "]: " ++ shown l.2)
  | .continuesNothing => "a line continues an option without a value"
  | .strayPercent rest => "'%' must be followed by '%' or '(', found: " ++ shown rest
  | .badReference rest => "bad interpolation variable reference " ++ shown rest
  | .unknownReference option name raw key =>
    "Bad value substitution: option " ++ shown option ++ " in section " ++ shown name ++
      " contains an interpolation key " ++ shown key ++
      " which is not a valid option name. Raw value: " ++ shown raw
  | .emptyReference => "a reference to an option without a value"
  | .tooDeep option name raw =>
    "Recursion limit exceeded in value substitution: option " ++ shown option ++ " in section " ++
      shown name ++ " contains an interpolation key which cannot be substituted in " ++
      toString maxDepth ++ " steps. Raw value: " ++ shown raw

/-- The raw value of an option, from the section or else from the default section. -/
def Document.raw? (d : Document) (name option : Line) : Option (Option Line) :=
  (((d.sections.lookup name).getD []).lookup option).or (d.defaults.lookup option)

end Covenant.Ini
