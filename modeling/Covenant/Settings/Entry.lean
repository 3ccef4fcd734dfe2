/-!
# Entries

What stands where a setting is given: nearly always a text. A key of a settings file can lack its
value, and a switch on the command line can be given `--`, which stands for no value at all.
-/

namespace Covenant

/-- What is given for a setting. -/
inductive Entry
  | text (s : String)
  /-- A key without a value. -/
  | bare
  /-- A switch whose list of values is empty. -/
  | empty
  deriving DecidableEq, Repr

namespace Entry

/-- The entry of a key that may lack its value. -/
def ofOption : Option String → Entry
  | some s => .text s
  | none => .bare

def shown : Entry → String
  | .text s => s
  | .bare => "None"
  | .empty => "[]"

end Entry

end Covenant
