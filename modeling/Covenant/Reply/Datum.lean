/-!
# Structured data

The tree of values that a model's response is. A number is kept exactly, as a whole number divided
by a power of ten.
-/

namespace Covenant

/-- A value of a response. -/
inductive Datum
  | null
  | bool (b : Bool)
  | number (mantissa : Int) (places : Nat)
  | text (s : String)
  | list (items : List Datum)
  | record (fields : List (String × Datum))
  deriving BEq, Repr, Inhabited

namespace Datum

def field? (d : Datum) (name : String) : Option Datum :=
  match d with
  | .record fields => fields.lookup name
  | _ => none

/-- The text of a part, if it has one. -/
def partText? (d : Datum) : Option String :=
  match d.field? "text" with
  | some (.text s) => some s
  | _ => none

/-- The response in which the assistant says one text. -/
def saying (s : String) : Datum :=
  .record [("output", .record [("message", .record
    [("role", .text "assistant"), ("content", .list [.record [("text", .text s)]])])])]

/-- The response in which the assistant gives this list of parts. -/
def giving (content : Datum) : Datum :=
  .record [("output", .record [("message", .record
    [("role", .text "assistant"), ("content", content)])])]

end Datum

end Covenant
