import Covenant.Reply.Datum

/-!
# Replies of a model

What a model's service can do with a request: respond, refuse it with an error code, let it time
out, or be interrupted by the user. The replies of a client come in a fixed order; one of them may
be repeated without end.
-/

namespace Covenant

inductive Reply
  | response (body : Datum)
  /-- The same response to this and every later request. -/
  | always (body : Datum)
  | refusal (code : String) (message : Option String)
  | timeout
  | interrupt
  deriving BEq, Repr

/-- The replies that a client has left. -/
abbrev Script := List Reply

end Covenant
