import Covenant.Text.Line

/-!
# Paths as texts

The parts of a path that are found in its text alone.
-/

namespace Covenant.Path

open Text

/-- The names on the way. -/
def names (path : String) : List String :=
  ((cells '/' path.toList).map String.ofList).filter fun n => n != ""

/-- Whether the way starts at the root. -/
def isRooted (path : String) : Bool := path.toList.head? == some '/'

/-- Whether the path ends with a slash, and so can be that of a directory only. -/
def endsInSlash (path : String) : Bool := path.toList.getLast? == some '/'

/-- Whether a command that is given the path takes it for an option. -/
def looksLikeOption (path : String) : Bool := path.toList.head? == some '-'

/-- The text after the last slash. -/
def base (path : String) : String :=
  String.ofList (path.toList.reverse.takeWhile (· != '/')).reverse

/-- The text before the last slash, without slashes at its end unless it has nothing else. -/
def directory (path : String) : String :=
  let head := path.toList.reverse.dropWhile (· != '/')
  if head.all (· == '/') then String.ofList head.reverse
  else String.ofList (head.dropWhile (· == '/')).reverse

/-- The path of `name` in the directory `dir`. -/
def join (dir name : String) : String :=
  if isRooted name then name
  else if dir == "" || endsInSlash dir then dir ++ name
  else dir ++ "/" ++ name

/-- The last name of the path without its last extension. A dot at either end of the name starts
no extension. -/
def stem (path : String) : String :=
  let name := (((names path).filter fun n => n != ".").getLast?.getD "").toList
  let extension := name.reverse.takeWhile (· != '.')
  let before := name.take (name.length - extension.length - 1)
  if name.elem '.' && !before.isEmpty && !extension.isEmpty then String.ofList before
  else String.ofList name

end Covenant.Path
