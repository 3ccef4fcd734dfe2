import Covenant.Ini.Basic
import Covenant.Place
import Covenant.World.Disk

/-!
# How a run can stop

An operation returns, or a fault stops it, or the program exits with a status.
-/

namespace Covenant

/-- Why an operation did not return. -/
inductive Fault
  /-- A block header names no owner. -/
  | unreadableHeader
  /-- There is no line with the number. -/
  | noSuchLine (f : PlaceFault)
  /-- There is no message with the number of the mark. -/
  | noSuchMessage (f : PlaceFault)
  /-- A response lacks this field. -/
  | missingField (name : String)
  /-- A response has a record where a list of parts belongs. -/
  | recordForList
  /-- A value is not of the kind that is needed. -/
  | wrongKind
  /-- A value is needed that has not been set. -/
  | unset
  /-- A file or a fetched body is no text. -/
  | notText
  /-- A title is printed where there is no terminal to show it. -/
  | noTitle
  /-- A path is too long to be handed to the search. -/
  | argumentTooLong
  | disk (f : DiskFault)
  | settings (f : Ini.Fault)
  | httpStatus (code : Int) (reason : String)
  | unreachable (reason : String)
  | refused (code : String) (message : Option String)
  | inputTooLong
  | interrupted
  | noReplyLeft
  deriving DecidableEq, Repr

def Fault.message : Fault → String
  | .unreadableHeader => "list index out of range"
  | .noSuchLine f => f.message
  | .noSuchMessage .outside => "list assignment index out of range"
  | .noSuchMessage .tooLarge => PlaceFault.tooLarge.message
  | .missingField name => Text.quoted name
  | .recordForList => "0"
  | .wrongKind => "a value is of the wrong kind"
  | .unset => "a value has not been set"
  | .notText => "the bytes are no text"
  | .noTitle => "there is no title to set"
  | .argumentTooLong => "[Errno 7] Argument list too long: 'grep'"
  | .disk f => f.message
  | .settings f => f.message
  | .httpStatus code reason => "HTTP Error " ++ toString code ++ ": " ++ reason
  | .unreachable reason => "<urlopen error " ++ reason ++ ">"
  | .refused code message =>
    "An error occurred (" ++ code ++ ") when calling the Converse operation: " ++
      message.getD "Unknown"
  | .inputTooLong => ""
  | .interrupted => ""
  | .noReplyLeft => "no reply left"

/-- What stops an operation. -/
inductive Stop
  | exit (status : Nat)
  | fault (f : Fault)
  deriving DecidableEq, Repr

end Covenant
