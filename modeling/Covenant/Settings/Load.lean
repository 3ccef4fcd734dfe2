import Covenant.Ini.Reference
import Covenant.Settings.CommandLine
import Covenant.World.Basic

/-!
# Where settings come from

Settings start from their defaults. A settings file, then the command line, override them. Each
value that is read takes effect at once, so a fault in a file leaves the values read before it.
-/

namespace Covenant.Settings

open Text

/-- The section of a settings file that is read. -/
def sectionName : Line := "config".toList

/-- Whether a value says yes. -/
def isTrue (value : String) : Bool := lower value.toList == "true".toList

/-- Takes an option, if the document has it. -/
def takeOption (d : Ini.Document) (name : String)
    (set : Option String → Settings → Settings) : Effect Unit := do
  match d.get? sectionName name.toList with
  | .error f => Effect.fail (.settings f)
  | .ok none => return
  | .ok (some value) => Effect.modifySettings (set (value.map String.ofList))

/-- Takes an option that has to have a value, if the document has it. -/
def takeValue (d : Ini.Document) (name : String)
    (set : String → Settings → Settings) : Effect Unit := do
  match d.get? sectionName name.toList with
  | .error f => Effect.fail (.settings f)
  | .ok none => return
  | .ok (some none) => Effect.fail .unset
  | .ok (some (some value)) => Effect.modifySettings (set (String.ofList value))

def takeDocument (d : Ini.Document) : Effect Unit := do
  let home := (← get).home
  takeValue d "files_to_annotate" fun v s => { s with files := filesIn v }
  takeOption d "worker_model" fun v s => { s with workerModel := Entry.ofOption v }
  takeOption d "arbiter_model" fun v s => { s with arbiterModel := Entry.ofOption v }
  takeValue d "prompt_dir" fun v s => { s with promptDir := asDirectory home v }
  takeValue d "target_dir" fun v s => { s with targetDir := asDirectory home v }
  takeValue d "source_dir" fun v s => { s with sourceDir := asDirectory home v }
  takeValue d "update_source" fun v s => { s with replaceSource := isTrue v }
  takeValue d "gen_harnesses" fun v s => { s with wantHarnesses := isTrue v }
  takeValue d "gen_type_invariants" fun v s => { s with wantInvariants := isTrue v }
  takeValue d "try_compile" fun v s => { s with checkCompile := isTrue v }
  takeOption d "worker_region" fun v s => { s with workerRegion := v }
  takeOption d "arbiter_region" fun v s => { s with arbiterRegion := v }
  takeValue d "verbose" fun v s => { s with verbose := isTrue v }
  Effect.modifySettings settle

/-- Takes the options of a settings file; without the file the program ends. -/
def loadFile (path : String) : Effect Unit := do
  match (← get).disk.load path with
  | .error (.missing _) =>
    Effect.say (Colour.red.paint ("Cannot find configuration file \"" ++ path ++ "\""))
    Effect.exit 1
  | .error f => Effect.fail (.disk f)
  | .ok content =>
    let text ← Effect.decode content
    match Ini.parse sectionName text with
    | .error f => Effect.fail (.settings f)
    | .ok d => takeDocument d

/-- Values that override the settings; an empty text overrides nothing. -/
structure Overrides where
  files : Entry := .text ""
  workerModel : Entry := .text ""
  arbiterModel : Entry := .text ""
  promptDir : Entry := .text ""
  targetDir : Entry := .text ""
  sourceDir : Entry := .text ""
  replaceSource : Option Bool := none
  wantHarnesses : Option Bool := none
  wantInvariants : Option Bool := none
  checkCompile : Option Bool := none
  verbose : Option Bool := none
  /-- The settings file to take first. -/
  config : Entry := .text ""
  deriving DecidableEq, Repr

/-- Takes the settings file, if one is named. -/
def loadEntry : Entry → Effect Unit
  | .text path => if path = "" then pure () else loadFile path
  | .bare | .empty => Effect.fail .wrongKind

/-- Overrides a setting that any entry can be. -/
def overrideName (e : Entry) (set : Entry → Settings → Settings) : Effect Unit :=
  if e = .text "" then pure () else Effect.modifySettings (set e)

/-- Overrides a setting that has to be a text. -/
def overrideText (e : Entry) (set : String → Settings → Settings) : Effect Unit :=
  match e with
  | .text s => if s = "" then pure () else Effect.modifySettings (set s)
  | .bare | .empty => Effect.fail .unset

/-- The settings with the yes and no that override theirs. -/
def overrideFlags (s : Settings) (o : Overrides) : Settings :=
  { s with
    replaceSource := o.replaceSource.getD s.replaceSource
    wantHarnesses := o.wantHarnesses.getD s.wantHarnesses
    wantInvariants := o.wantInvariants.getD s.wantInvariants
    checkCompile := o.checkCompile.getD s.checkCompile
    verbose := o.verbose.getD s.verbose }

/-- Takes the settings file, if one is named, and then the values that override it, and opens the
log. A target directory is taken as the source directory, which the source directory itself
overrides. -/
def configure (o : Overrides) : Effect Unit := do
  let home := (← get).home
  loadEntry o.config
  overrideText o.files fun v s => { s with files := filesIn v }
  overrideName o.workerModel fun e s => { s with workerModel := e }
  overrideName o.arbiterModel fun e s => { s with arbiterModel := e }
  overrideText o.promptDir fun v s => { s with promptDir := asDirectory home v }
  overrideText o.targetDir fun v s => { s with sourceDir := asDirectory home v }
  overrideText o.sourceDir fun v s => { s with sourceDir := asDirectory home v }
  Effect.modifySettings fun s => (s.overrideFlags o).settle
  Effect.openLog

/-- A switch that was set says yes, one that was not says nothing. -/
def ofFlag (b : Bool) : Option Bool := if b then some true else none

def Overrides.ofArguments (a : CommandLine.Arguments) : Overrides where
  files := a.files
  workerModel := a.workerModel
  arbiterModel := a.arbiterModel
  sourceDir := a.source
  targetDir := a.target
  replaceSource := ofFlag a.update
  wantHarnesses := ofFlag a.proof
  checkCompile := ofFlag a.kani
  verbose := ofFlag a.verbose
  config := a.config

/-- Takes the settings from a command line. -/
def configureFrom (arguments : List String) : Effect Unit := do
  match CommandLine.parse (← get).digits arguments with
  | .run a => configure (Overrides.ofArguments a)
  | .help =>
    Effect.print CommandLine.helpText
    Effect.exit 0
  | .refused f =>
    Effect.complain CommandLine.usage
    Effect.complain f.report
    Effect.exit 2

end Covenant.Settings
