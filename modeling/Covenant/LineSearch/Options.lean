import Covenant.Text.Search

/-!
# Options of a search

A search for lines is told where to look by a path. A path that starts with a dash is an option
instead: letters after one dash, or a name after two. Some letters take what follows them as their
argument. A text that is no option makes the search refuse, and `ofPath?` is `none` then.
-/

namespace Covenant.LineSearch

open Text

/-- What a zero byte in a file does. -/
inductive ZeroByte
  | endsLine
  | isOrdinary
  | hidesFile
  deriving DecidableEq, Repr

inductive Pattern
  | usual
  /-- The expressions in the lines of the text. -/
  | given (text : String)
  /-- The expressions in the lines of the file; a dash is the standard input. -/
  | listedIn (path : String)
  deriving DecidableEq, Repr

/-- How a search goes about its work. -/
structure Options where
  /-- It looks at every file below the working directory. -/
  everywhere : Bool := false
  anyCase : Bool := false
  inverted : Bool := false
  wholeLine : Bool := false
  wholeWord : Bool := false
  /-- Lines end with zero bytes and not with newlines. -/
  zeroEnded : Bool := false
  zeroByte : ZeroByte := .endsLine
  /-- It stops before the first line. -/
  atOnce : Bool := false
  pattern : Pattern := .usual
  /-- It tells about itself, which always succeeds. -/
  introduction : Bool := false
  deriving DecidableEq, Repr

/-- The integer that a text writes, with blanks and a sign allowed before the digits. -/
def integer? (s : List Char) : Option Int :=
  let s := s.dropWhile fun c => c = ' ' || (9 ≤ c.toNat && c.toNat ≤ 13)
  let digits := match s with
    | '+' :: r | '-' :: r => r
    | r => r
  if digits.isEmpty || !digits.all Char.isDigit then none
  else
    let n := digits.foldl (fun n c => 10 * n + (c.toNat - '0'.toNat)) 0
    some (if s.head? = some '-' then -(n : Int) else n)

/-- Whether `s` stands for `name`: it is all of it, or its beginning with `least` characters or
more. -/
def abbreviates (s : List Char) (name : String) (least : Nat) : Bool :=
  least ≤ s.length && s.isPrefixOf name.toList

namespace Options

/-- The options with what is to be done about directories. -/
def withDirectories (o : Options) (action : List Char) : Option Options :=
  if abbreviates action "recurse" 3 then some { o with everywhere := true }
  else if abbreviates action "read" 3 || abbreviates action "skip" 1 then
    some { o with everywhere := false }
  else none

/-- The letters that change what is shown, and not what is found. -/
def idleLetters : List Char := "EHLTUZbchlnoqsu".toList

/-- The options with a letter that takes no argument. -/
def withLetter (o : Options) (c : Char) : Option Options :=
  match c with
  | 'r' | 'R' => some { o with everywhere := true }
  | 'i' | 'y' => some { o with anyCase := true }
  | 'v' => some { o with inverted := true }
  | 'x' => some { o with wholeLine := true }
  | 'w' => some { o with wholeWord := true }
  | 'z' => some { o with zeroEnded := true }
  | 'a' => some { o with zeroByte := .isOrdinary }
  | 'I' => some { o with zeroByte := .hidesFile }
  | 'V' => some { o with introduction := true }
  | c => if idleLetters.elem c then some o else none

/-- The letters that take an argument. -/
def argumentLetters : List Char := "ABCDXdefm".toList

/-- The options with a letter and its argument. -/
def withArgument (o : Options) (c : Char) (argument : List Char) : Option Options :=
  if argument.isEmpty then none
  else
    match c with
    | 'A' | 'B' | 'C' =>
      match integer? argument with
      | some n => if 0 ≤ n then some o else none
      | none => none
    | 'm' => (integer? argument).map fun (n : Int) => { o with atOnce := n == 0 }
    | 'd' => o.withDirectories argument
    | 'D' => if argument = "read".toList || argument = "skip".toList then some o else none
    | 'e' => some { o with pattern := .given (String.ofList argument) }
    | 'f' => some { o with pattern := .listedIn (String.ofList argument) }
    | 'X' => if argument = "egrep".toList then some o else none
    | _ => none

/-- The most digits of a number of lines, not counting zeros at its start. -/
def maxDigits : Nat := 21

/-- The options with letters; digits among them are a number of lines, of which `n` digits have
been read. -/
def withLetters (o : Options) (n : Nat) : List Char → Option Options
  | [] => some o
  | c :: r =>
    if c.isDigit then
      let n := if n = 0 && c = '0' then 0 else n + 1
      if n ≤ maxDigits then o.withLetters n r else none
    else if argumentLetters.elem c then o.withArgument c r
    else
      match o.withLetter c with
      | some o => o.withLetters 0 r
      | none => none

/-- When colours can be shown, in any case; the search answers any other word by telling about
itself. -/
def colourWords : List String :=
  ["always", "yes", "force", "never", "no", "none", "auto", "tty", "if-tty"]

/-- The options that a name stands for, which may be cut short as long as no other name begins
alike. -/
def ofName? (s : List Char) : Option Options :=
  match cut? "=" s with
  | some (name, value) =>
    if abbreviates name "directories" 2 then withDirectories {} value
    else if abbreviates name "color" 3 || abbreviates name "colour" 3 then
      some { introduction := !colourWords.elem (String.ofList (value.map Char.toLower)) }
    else if abbreviates name "regexp" 3 then some { pattern := .given (String.ofList value) }
    else if name = "file".toList then some { pattern := .listedIn (String.ofList value) }
    else none
  | none =>
    if abbreviates s "help" 1 || abbreviates s "version" 1 then some { introduction := true }
    else if abbreviates s "recursive" 3 || abbreviates s "dereference-recursive" 3 then
      some { everywhere := true }
    else none

/-- The options that a path stands for; `none` if the search refuses it or it has no part in what
is found. -/
def ofPath? (path : String) : Option Options :=
  match path.toList with
  | '-' :: '-' :: name => ofName? name
  | '-' :: letters => withLetters {} 0 letters
  | _ => none

end Options

end Covenant.LineSearch
