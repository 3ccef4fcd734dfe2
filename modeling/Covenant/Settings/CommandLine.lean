import Covenant.Settings.Entry
import Covenant.Text.Digit
import Covenant.Text.Quoted
import Covenant.Text.Search

/-!
# The command line

A command line sets switches, each written short (`-f`) or long (`--files`). A long one may be cut
short as long as it stays unambiguous. A value follows as the next argument, after `=`, or glued
to a short switch; short switches without a value can be written in one argument. A value `--`
after `=` or glued to its switch is an empty one. After an argument `--` nothing is a switch.
Whatever is neither a switch nor its value is left over, and leftovers are refused once all
switches have been taken.
-/

namespace Covenant.CommandLine

open Text

/-- The switches, in the order in which they are listed. -/
inductive Switch
  | help | files | workerModel | arbiterModel | source | target | update | proof | kani | verbose
  | config
  deriving DecidableEq, Repr

namespace Switch

def all : List Switch :=
  [help, files, workerModel, arbiterModel, source, target, update, proof, kani, verbose, config]

def letter : Switch → Char
  | help => 'h'
  | files => 'f'
  | workerModel => 'w'
  | arbiterModel => 'a'
  | source => 's'
  | target => 't'
  | update => 'u'
  | proof => 'p'
  | kani => 'k'
  | verbose => 'v'
  | config => 'c'

def long : Switch → String
  | help => "--help"
  | files => "--files"
  | workerModel => "--wmodel"
  | arbiterModel => "--amodel"
  | source => "--source"
  | target => "--target"
  | update => "--update"
  | proof => "--proof"
  | kani => "--kani"
  | verbose => "--verbose"
  | config => "--config"

def short (s : Switch) : String := String.ofList ['-', s.letter]

def takesValue : Switch → Bool
  | files | workerModel | arbiterModel | source | target | config => true
  | help | update | proof | kani | verbose => false

/-- Both forms of the switch. -/
def label (s : Switch) : String := s.short ++ "/" ++ s.long

def ofLetter? (c : Char) : Option Switch := all.find? fun s => s.letter == c

def ofLong? (text : List Char) : Option Switch := all.find? fun s => s.long.toList == text

end Switch

/-- Why a command line is refused. -/
inductive UsageFault
  | missingValue (s : Switch)
  | unwantedValue (s : Switch) (value : List Char)
  | leftover (arguments : List String)
  | ambiguous (argument : List Char) (candidates : List Switch)
  deriving DecidableEq, Repr

def UsageFault.message : UsageFault → String
  | .missingValue s => "argument " ++ s.label ++ ": expected one argument"
  | .unwantedValue s v =>
    "argument " ++ s.label ++ ": ignored explicit argument " ++ String.ofList (quotedChars v)
  | .leftover args => "unrecognized arguments: " ++ String.intercalate " " args
  | .ambiguous a cs =>
    "ambiguous option: " ++ String.ofList a ++ " could match " ++
      String.intercalate ", " (cs.map Switch.long)

/-- What a command line sets. A value that is not given is the empty text. -/
structure Arguments where
  files : Entry := .text ""
  workerModel : Entry := .text ""
  arbiterModel : Entry := .text ""
  source : Entry := .text ""
  target : Entry := .text ""
  config : Entry := .text ""
  update : Bool := false
  proof : Bool := false
  kani : Bool := false
  verbose : Bool := false
  deriving DecidableEq, Repr

/-- What a command line asks for. -/
inductive Request
  | run (a : Arguments)
  | help
  | refused (f : UsageFault)
  deriving DecidableEq, Repr

/-- One argument, seen by itself. -/
inductive Token
  /-- No switch: a value, or left over. -/
  | operand
  /-- The end of the switches. -/
  | terminator
  /-- Written like a switch, but there is none such. -/
  | unknown
  /-- A switch without a value attached to it. -/
  | bare (s : Switch)
  /-- A switch in its long form with a value after `=`. -/
  | assignedLong (s : Switch) (value : List Char)
  /-- A switch in its short form with a text attached, after `=` or at once. -/
  | attached (s : Switch) (rest : List Char)
  deriving DecidableEq, Repr

/-- Whether the text is a negative number, with or without a decimal point. -/
def isNegativeNumber (digits : DigitTable) (a : List Char) : Bool :=
  match dropEnd "\n" a with
  | '-' :: r =>
    let isDigit := fun c => (digits.digit? c).isSome
    match r.dropWhile isDigit with
    | [] => !r.isEmpty
    | '.' :: t => !t.isEmpty && t.all isDigit
    | _ => false
  | _ => false

/-- The switch that is written in full, short or long. -/
def writtenInFull? (a : List Char) : Option Switch :=
  match a with
  | ['-', c] => if c = '-' then none else Switch.ofLetter? c
  | _ => Switch.ofLong? a

/-- A long form, perhaps cut short, with perhaps a value after `=`. -/
def classifyLong (a : List Char) : Except UsageFault (Option Token) :=
  let (name, value) :=
    match cut? "=" a with
    | some (n, v) => (n, some v)
    | none => (a, none)
  match Switch.all.filter fun s => name.isPrefixOf s.long.toList with
  | [] => .ok none
  | [s] =>
    match value with
    | some v => .ok (some (.assignedLong s v))
    | none => .ok (some (.bare s))
  | candidates => .error (.ambiguous a candidates)

/-- A short form with something after its letter. -/
def classifyShort (c : Char) (r : List Char) : Option Token :=
  (Switch.ofLetter? c).map fun s =>
    match r with
    | '=' :: v => .attached s v
    | _ => .attached s r

/-- An argument that starts like a switch and is none: a negative number or a text with a space
is an operand. -/
def classifyStray (digits : DigitTable) (a : List Char) : Token :=
  if isNegativeNumber digits a || a.elem ' ' then .operand else .unknown

/-- What an argument is, by itself. -/
def classify (digits : DigitTable) (a : List Char) : Except UsageFault Token :=
  match a with
  | [] => .ok .operand
  | ['-'] => .ok .operand
  | '-' :: c :: r =>
    match writtenInFull? a with
    | some s => .ok (.bare s)
    | none =>
      if c = '-' then
        match classifyLong a with
        | .error e => .error e
        | .ok t => .ok (t.getD (classifyStray digits a))
      else .ok ((classifyShort c r).getD (classifyStray digits a))
  | _ => .ok .operand

/-- The arguments with what each is; after `--` all are operands. -/
def tokenize (digits : DigitTable) : List String → Except UsageFault (List (String × Token))
  | [] => .ok []
  | a :: r =>
    if a = "--" then .ok ((a, .terminator) :: r.map fun b => (b, .operand))
    else
      match classify digits a.toList with
      | .error e => .error e
      | .ok t => (tokenize digits r).map ((a, t) :: ·)

/-- What the last switch of an argument still needs. -/
inductive Ending
  | complete
  | value (s : Switch) (v : List Char)
  | wantsNext (s : Switch)
  deriving DecidableEq, Repr

/-- The switches of one argument. -/
structure Cluster where
  flags : List Switch
  ending : Ending
  deriving DecidableEq, Repr

def Cluster.ofBare (s : Switch) : Cluster :=
  if s.takesValue then ⟨[], .wantsNext s⟩ else ⟨[s], .complete⟩

/-- The cluster with a switch before it. -/
def Cluster.after (k : Cluster) (s : Switch) : Cluster := { k with flags := s :: k.flags }

/-- The cluster of a short switch with a text attached: its value, or the letters of more
switches. -/
def spread (s : Switch) (v : List Char) : Except UsageFault Cluster :=
  if s.takesValue then .ok ⟨[], .value s v⟩
  else
    match v with
    | [] => .error (.unwantedValue s v)
    | c :: r =>
      match Switch.ofLetter? c with
      | none => .error (.unwantedValue s v)
      | some t =>
        if r.isEmpty then .ok ((Cluster.ofBare t).after s) else (spread t r).map (·.after s)

/-- The switches of a token. -/
def Token.cluster? : Token → Except UsageFault (Option Cluster)
  | .operand | .terminator | .unknown => .ok none
  | .bare s => .ok (some (Cluster.ofBare s))
  | .assignedLong s v =>
    if s.takesValue then .ok (some ⟨[], .value s v⟩) else .error (.unwantedValue s v)
  | .attached s v => (spread s v).map some

namespace Arguments

/-- Sets a switch without a value. -/
def raise (a : Arguments) : Switch → Arguments
  | .update => { a with update := true }
  | .proof => { a with proof := true }
  | .kani => { a with kani := true }
  | .verbose => { a with verbose := true }
  | _ => a

/-- Sets a switch to a value. -/
def assign (a : Arguments) (s : Switch) (v : Entry) : Arguments :=
  match s with
  | .files => { a with files := v }
  | .workerModel => { a with workerModel := v }
  | .arbiterModel => { a with arbiterModel := v }
  | .source => { a with source := v }
  | .target => { a with target := v }
  | .config => { a with config := v }
  | _ => a

end Arguments

/-- What a value that is attached to its switch gives. -/
def attachedValue (v : List Char) : Entry :=
  if v = ['-', '-'] then .empty else .text (String.ofList v)

/-- Takes the arguments in order; `extra` are those that are left over. -/
def take : List (String × Token) → Arguments → List String → Request
  | [], a, extra => if extra.isEmpty then .run a else .refused (.leftover extra)
  | (text, token) :: rest, a, extra =>
    match token.cluster? with
    | .error e => .refused e
    | .ok none => take rest a (extra ++ [text])
    | .ok (some k) =>
      match k.ending, rest with
      | .wantsNext s, (value, .operand) :: rest =>
        if k.flags.elem .help then .help
        else take rest ((k.flags.foldl Arguments.raise a).assign s (.text value)) extra
      | .wantsNext s, _ => .refused (.missingValue s)
      | ending, rest =>
        if k.flags.elem .help then .help
        else
          let a := k.flags.foldl Arguments.raise a
          match ending with
          | .value s v => take rest (a.assign s (attachedValue v)) extra
          | _ => take rest a extra

/-- What the command line asks for. -/
def parse (digits : DigitTable) (arguments : List String) : Request :=
  match tokenize digits arguments with
  | .error e => .refused e
  | .ok tokens => take tokens {} []

/-- The first lines of the help, and what precedes the text of a fault. -/
def usage : String :=
  "usage: contractgen.py [-h] [-f FILES] [-w WMODEL] [-a AMODEL] [-s SOURCE]\n" ++
  "                      [-t TARGET] [-u] [-p] [-k] [-v] [-c CONFIG]\n"

def helpText : String :=
  usage ++ "\n" ++
  "options:\n" ++
  "  -h, --help            show this help message and exit\n" ++
  "  -f FILES, --files FILES\n" ++
  "                        library source files to annotate\n" ++
  "  -w WMODEL, --wmodel WMODEL\n" ++
  "                        llm model ID of the main worker\n" ++
  "  -a AMODEL, --amodel AMODEL\n" ++
  "                        llm model ID of the arbiter\n" ++
  "  -s SOURCE, --source SOURCE\n" ++
  "                        library source directory, can be local or remote\n" ++
  "  -t TARGET, --target TARGET\n" ++
  "                        the target directory of the output files\n" ++
  "  -u, --update          update the original source files\n" ++
  "  -p, --proof           generate harnesses\n" ++
  "  -k, --kani            run Kani just to verify that the annotations compile\n" ++
  "                        without errors\n" ++
  "  -v, --verbose         verbose mode\n" ++
  "  -c CONFIG, --config CONFIG\n" ++
  "                        configuration file\n"

/-- What is printed for a fault, after the usage. -/
def UsageFault.report (f : UsageFault) : String := "contractgen.py: error: " ++ f.message ++ "\n"

end Covenant.CommandLine
