import Covenant.Settings.Entry
import Covenant.Text.Blank
import Covenant.Text.Line
import Covenant.Text.Search

/-!
# Settings

What a run works with: the files, the two models and their regions, the directories, and what to
do beyond drafting contracts. A model or region can be left unnamed.
-/

namespace Covenant

open Text

structure Settings where
  files : List String
  workerModel : Entry
  arbiterModel : Entry
  promptDir : String
  targetDir : String
  sourceDir : String
  replaceSource : Bool
  wantHarnesses : Bool
  checkCompile : Bool
  wantInvariants : Bool
  workerRegion : Option String
  arbiterRegion : Option String
  verbose : Bool
  deriving DecidableEq, Repr

namespace Settings

/-- The settings where nothing else is said. -/
def default : Settings where
  files := []
  workerModel := .text "us.anthropic.claude-3-7-sonnet-20250219-v1:0"
  arbiterModel := .text "us.anthropic.claude-sonnet-4-20250514-v1:0"
  promptDir := "prompts/"
  targetDir := "target/"
  sourceDir :=
    "https://raw.githubusercontent.com/model-checking/verify-rust-std/refs/heads/main/"
  replaceSource := false
  wantHarnesses := false
  checkCompile := false
  wantInvariants := true
  workerRegion := some "us-west-2"
  arbiterRegion := some "us-west-2"
  verbose := false

/-- The directory with a slash at its end; a tilde at its start is the home directory. -/
def asDirectory (home dir : String) : String :=
  let dir := if endsWith "/" dir.toList then dir else dir ++ "/"
  if startsWith "~" dir.toList then home ++ String.ofList (dir.toList.drop 1) else dir

/-- The file under the source directory; a file that begins with that directory is there
already. -/
def placeFile (sourceDir file : String) : String :=
  if startsWith sourceDir file.toList then file
  else sourceDir ++ String.ofList (dropStart "/" file.toList)

/-- The files under the source directory, without empty names. -/
def placeFiles (sourceDir : String) (files : List String) : List String :=
  (files.map (placeFile sourceDir)).filter fun f => f != ""

/-- The files in a text that names one in each row. -/
def filesIn (text : String) : List String :=
  ((rows text.toList).map fun r => String.ofList (strip r)).filter fun f => f != ""

/-- The settings with their files under the source directory. -/
def settle (s : Settings) : Settings := { s with files := placeFiles s.sourceDir s.files }

def shownBool : Bool → String
  | true => "True"
  | false => "False"

/-- The settings as lines of text. -/
def describe (s : Settings) : List String :=
  ["Worker model: " ++ s.workerModel.shown,
    "Arbiter model: " ++ s.arbiterModel.shown,
    "Worker region: " ++ (Entry.ofOption s.workerRegion).shown,
    "Arbiter region " ++ (Entry.ofOption s.arbiterRegion).shown,
    "Files to annotate:"] ++
  (if s.files.isEmpty then ["  []"] else s.files.map ("  " ++ ·)) ++
  ["Prompt dir: " ++ s.promptDir,
    "Target dir: " ++ s.targetDir,
    "Source dir: " ++ s.sourceDir,
    "Update source: " ++ shownBool s.replaceSource,
    "Generate harnesses: " ++ shownBool s.wantHarnesses,
    "Generate type invariants: " ++ shownBool s.wantInvariants,
    "Try to run Kani: " ++ shownBool s.checkCompile,
    "Verbose mode: " ++ shownBool s.verbose]

end Settings

end Covenant
