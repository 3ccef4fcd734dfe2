import Covenant.Conversation.Message
import Covenant.Reply.Basic
import Covenant.Settings.Basic
import Covenant.Text.Colour
import Covenant.Text.Digit
import Covenant.Text.Terminal
import Covenant.World.Fault

/-!
# The outside world

What a run reads and changes: the disk, the replies of the models' clients that are still to be
made, the settings and the log. What it only reads is its host: the web, external tools, and where
it was started. A trace keeps what it prints, logs and does.

An `Effect` is a run of an operation on the world. When it is stopped, the changes made up to that
point stay.
-/

namespace Covenant

/-- What is found at an address of the web. -/
inductive WebAnswer
  | body (c : Content)
  | status (code : Int) (reason : String)
  | unreachable (reason : String)
  deriving DecidableEq, Repr

/-- What the formatter does to the file it is given. -/
inductive Formatter
  | keeps
  | missing
  | replaces (text : String)
  deriving DecidableEq, Repr

/-- The external tools. What comes of a run depends on the disk that it finds, and on what it is
given. -/
structure Tools where
  /-- The exit status of the search for `timeout`. -/
  which : Disk → Int := fun _ => 0
  /-- What the verifier prints in a directory, if that is a text. It changes no file. -/
  kani (directory : String) : Disk → Option String := fun _ => some ""
  /-- What becomes of the file at a path. -/
  formatter (path : String) : Disk → Formatter := fun _ => .keeps
  /-- The disk after a file was checked out in a directory. -/
  git (directory file : String) : Disk → Disk := id

/-- What a run finds in its surroundings and does not change. -/
structure Host where
  web : String → WebAnswer
  tools : Tools
  /-- What the clock shows. -/
  clock : String
  /-- The home directory. -/
  home : String
  /-- What a search of the standard input finds there. -/
  input : Content
  /-- The digits that are known. -/
  digits : Text.DigitTable
  /-- Whether what is printed goes to a terminal. -/
  terminal : Bool

/-- Where the lines of the log go. -/
inductive LogState
  /-- Where the one who runs the program wants them, and to no file of its own. -/
  | elsewhere
  /-- Nowhere, as the log has not been opened. -/
  | closed
  /-- To the end of the log file. -/
  | opened
  deriving DecidableEq, Repr

/-- What a run does. -/
inductive Event
  | connect (region : Option String)
  /-- The messages are sent; the one with number `mark` is marked. -/
  | request (model : Entry) (system : List String) (messages : List Message) (mark : Int)
  | close
  | wait (seconds : Nat)
  | fetch (url : String)
  | run (command : List String) (directory : Option String)
  /-- The file at the path has this content from now on. -/
  | write (path : String) (content : Content)
  /-- The worker takes on a file with this text. -/
  | take (file text : String)
  /-- The arbiter, which has been shown an output, is going to be asked for its grade. -/
  | grading (output : String)
  /-- The output got this grade. -/
  | graded (output : String) (grade : Int)
  deriving BEq, Repr

/-- What a run leaves behind besides files. -/
structure Trace where
  out : String := ""
  err : String := ""
  log : List String := []
  events : List Event := []
  deriving BEq, Repr

structure World extends Host where
  disk : Disk
  /-- The replies of the clients that have not been made yet. -/
  scripts : List Script
  settings : Settings
  log : LogState
  /-- Whether what is printed is made plain. -/
  plain : Bool := false
  trace : Trace := {}

/-- The log file, in the working directory. -/
def logName : String := "logger.log"

/-- A line as it stands in the log file. -/
def loggedLine (line : String) : String := "INFO:configuration:" ++ line ++ "\n"

namespace World

/-- The world in which the line has been logged. -/
def logging (w : World) (line : String) : World :=
  { w with
    disk := if w.log = .opened then w.disk.extend (Location.ofPath logName) (loggedLine line)
      else w.disk
    trace := { w.trace with log := w.trace.log ++ [line] } }

end World

/-- An operation on the world. -/
abbrev Effect := EStateM Stop World

namespace Effect

def fail {α : Type} (f : Fault) : Effect α := throw (.fault f)

def exit {α : Type} (status : Nat) : Effect α := throw (.exit status)

def settings : Effect Settings := do return (← get).settings

def modifySettings (f : Settings → Settings) : Effect Unit :=
  modify fun w => { w with settings := f w.settings }

def modifyTrace (f : Trace → Trace) : Effect Unit := modify fun w => { w with trace := f w.trace }

/-- Notes an event. -/
def record (e : Event) : Effect Unit := modifyTrace fun t => { t with events := t.events ++ [e] }

def log (line : String) : Effect Unit := modify (·.logging line)

/-- The text as it is printed, if it can be. -/
def printed? (w : World) (s : String) : Option String :=
  if w.plain then (Text.plain? w.digits s.toList).map String.ofList else some s

def print (s : String) : Effect Unit := do
  match printed? (← get) s with
  | some s => modifyTrace fun t => { t with out := t.out ++ s }
  | none => fail .noTitle

def say (s : String) : Effect Unit := do
  print s
  print "\n"

/-- Prints a line in verbose mode. -/
def remark (s : String) : Effect Unit := do
  if (← settings).verbose then say s

/-- Prints an error text; one that cannot be printed is dropped. -/
def complain (s : String) : Effect Unit := do
  match printed? (← get) s with
  | some s => modifyTrace fun t => { t with err := t.err ++ s }
  | none => return

/-- The value, or the fault of the disk. -/
def ofDisk {α : Type} : Except DiskFault α → Effect α
  | .ok a => pure a
  | .error f => fail (.disk f)

def modifyDisk (f : Disk → Except DiskFault Disk) : Effect Unit := do
  let d ← ofDisk (f (← get).disk)
  modify fun w => { w with disk := d }

/-- Makes a directory and those on the way to it. -/
def makeDirectory (path : String) : Effect Unit := do
  let (d, fault) := (← get).disk.makeDirectory path
  modify fun w => { w with disk := d }
  match fault with
  | none => return
  | some f => fail (.disk f)

def openFile (path : String) : Effect Content := do ofDisk ((← get).disk.load path)

/-- The text of a content, with unified newlines. -/
def decode (c : Content) : Effect (List Char) :=
  match c.chars? with
  | some s => pure s
  | none => fail .notText

def readText (path : String) : Effect String := do
  return String.ofList (← decode (← openFile path))

/-- Writes a file anew. -/
def writeText (path text : String) : Effect Unit := do
  modifyDisk fun d => d.write path (.text text)
  record (.write path (.text text))

/-- Notes what the file at the path holds. -/
def recordWrite (path : String) : Effect Unit := do
  record (.write path (← ofDisk ((← get).disk.read path)))

/-- Writes a text at the end of a file. -/
def appendText (path text : String) : Effect Unit := do
  modifyDisk fun d => d.append path text
  recordWrite path

/-- Copies a file onto the file at the path `target`. -/
def copyOnto (source target : String) : Effect Unit := do
  modifyDisk fun d => d.copyOnto source target
  recordWrite target

/-- Copies a file with its rights to a path, into the directory if there is one at the path. -/
def copy (source target : String) : Effect Unit := do
  let target := (← get).disk.copyTarget source target
  copyOnto source target
  modifyDisk fun d => d.copyRights source target

/-- Opens the log file, unless the log goes elsewhere or is open already. -/
def openLog : Effect Unit := do
  if (← get).log = .closed then
    modifyDisk fun d => d.append logName ""
    modify fun w => { w with log := .opened }

def fetch (url : String) : Effect Content := do
  record (.fetch url)
  match (← get).web url with
  | .body c => return c
  | .status code reason => fail (.httpStatus code reason)
  | .unreachable reason => fail (.unreachable reason)

/-- Runs the formatter on a file, which it leaves alone if it cannot write it. -/
def format (path : String) : Effect Unit := do
  record (.run ["rustfmt", path] none)
  let w ← get
  match w.tools.formatter path w.disk with
  | .keeps => return
  | .missing => fail (.disk (.missing "rustfmt"))
  | .replaces text =>
    match w.disk.write path (.text text) with
    | .ok _ => writeText path text
    | .error _ => return

def checkout (directory file : String) : Effect Unit := do
  record (.run ["git", "-C", directory, "checkout", file] none)
  modify fun w => { w with disk := w.tools.git directory file w.disk }

/-- The replies of the next client that is made. -/
def takeScript : Effect Script := do
  let w ← get
  set { w with scripts := w.scripts.tail }
  return w.scripts.headD []

end Effect

/-- A part `σ` of the program's state, and the world. -/
structure Scene (σ : Type) where
  focus : σ
  world : World

/-- An operation on a part of the program's state and on the world. -/
abbrev Act (σ : Type) := EStateM Stop (Scene σ)

namespace Act

variable {σ τ α : Type}

/-- An operation on the world, as one that leaves the part alone. -/
def lift (e : Effect α) : Act σ α := fun s =>
  match e s.world with
  | .ok a w => .ok a { s with world := w }
  | .error x w => .error x { s with world := w }

instance : MonadLift Effect (Act σ) := ⟨lift⟩

def focus : Act σ σ := do return (← get).focus

def modifyFocus (f : σ → σ) : Act σ Unit := modify fun s => { s with focus := f s.focus }

/-- An operation on a part `τ` of the part `σ`. -/
def zoom (view : σ → τ) (update : τ → σ → σ) (act : Act τ α) : Act σ α := fun s =>
  match act ⟨view s.focus, s.world⟩ with
  | .ok a t => .ok a ⟨update t.focus s.focus, t.world⟩
  | .error x t => .error x ⟨update t.focus s.focus, t.world⟩

@[simp]
theorem focus_apply (s : Scene σ) : focus s = .ok s.focus s := rfl

@[simp]
theorem modifyFocus_apply (f : σ → σ) (s : Scene σ) :
    modifyFocus f s = .ok () ⟨f s.focus, s.world⟩ := rfl

/-- An operation on the world leaves the part alone, stopped or not. -/
theorem focus_lift (e : Effect α) (s : Scene σ) :
    match lift e s with
    | .ok _ t | .error _ t => t.focus = s.focus := by
  simp only [lift]
  cases e s.world <;> rfl

/-- An operation on the part `focus`, seen from the world alone: the changed part is given back
whether it was stopped or not. -/
def runOn (act : Act σ α) (focus : σ) (w : World) : Except Stop α × σ × World :=
  match act ⟨focus, w⟩ with
  | .ok a s => (.ok a, s.focus, s.world)
  | .error x s => (.error x, s.focus, s.world)

end Act

end Covenant
