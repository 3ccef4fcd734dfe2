import Covenant.Reply.Datum

/-!
# Messages

What is said in a conversation. Messages to the model have parts of text and documents; those of
the model are kept as they came.
-/

namespace Covenant

/-- One part of a message to the model. -/
inductive Part
  | text (s : String)
  /-- A document with its bytes in base 64. -/
  | document (name bytes : String)
  deriving DecidableEq, Repr

/-- A message: one to the model, or one of the model, kept as it came. -/
inductive Message
  | user (parts : List Part)
  | reply (body : Datum)
  deriving BEq, Repr

def Part.characters : Part → Nat
  | .text s => s.length
  | .document _ _ => 0

/-- How many characters the texts of a message have. -/
def Message.characters : Message → Nat
  | .user parts => parts.foldr (fun p n => p.characters + n) 0
  | .reply body =>
    match body.field? "content" with
    | some (.list items) => items.foldr (fun i n => (i.partText?.getD "").length + n) 0
    | _ => 0

end Covenant
