import Covenant.Contracts.Listing
import Covenant.Conversation.Exchange
import Covenant.Merge.File
import Covenant.Worker.Prompts

/-!
# The worker

The worker drafts contracts for one file at a time, refines them, drafts proof harnesses for the
functions that it annotated, and saves its drafts beside a copy of the source in the target
directory. What it has not been given or has not drafted yet is unset.
-/

namespace Covenant

open Text

structure Worker where
  /-- The file to annotate; empty before there is one. -/
  file : String
  /-- The name of the file's drafts in the target directory. -/
  draftName : Option String
  source : Option String
  contracts : Option String
  harnesses : Option String
  conversation : Conversation
  deriving BEq, Repr

namespace Worker

def hire : Effect Worker := do
  let s ← Effect.settings
  let conversation ← Conversation.connect s.workerModel s.workerRegion s.promptDir
  return ⟨"", none, none, none, none, conversation⟩

def talk {α : Type} (act : Act Conversation α) : Act Worker α :=
  Act.zoom (·.conversation) (fun c w => { w with conversation := c }) act

/-- Something that has to be set. -/
def need (what : Worker → Option String) : Act Worker String := do
  match what (← Act.focus) with
  | some s => return s
  | none => Effect.fail .unset

def setContracts (s : String) : Act Worker Unit :=
  Act.modifyFocus fun w => { w with contracts := some s }

def setHarnesses (s : String) : Act Worker Unit :=
  Act.modifyFocus fun w => { w with harnesses := some s }

/-- The path of one of the file's drafts in the target directory. -/
def draftPath (ending : String) : Act Worker String := do
  let id ← need (·.draftName)
  return (← Effect.settings).targetDir ++ id ++ ending

def greet : Act Worker String := do
  talk (Conversation.setSystem "Hi!" "")
  talk Conversation.greet

def ask : Act Worker String := talk Conversation.ask

/-- The name for the drafts of a file: its path below the source directory up to the first dot,
with dashes for slashes. -/
def draftNameOf (sourceDir file : String) : String :=
  String.ofList ((firstField "." (dropStart sourceDir file.toList)).map fun c =>
    if c = '/' then '-' else c)

/-- Whether the worker fetches the file. -/
def fetches (file : String) : Bool := startsWith "https://" file.toList

/-- The text of a source file, fetched or read. -/
def sourceText (file : String) : Effect String := do
  if fetches file then
    match (← Effect.fetch file).raw? with
    | some s => return s
    | none => Effect.fail .notText
  else Effect.readText file

def take (file : String) : Act Worker Unit := do
  let s ← Effect.settings
  Act.modifyFocus fun w =>
    { w with
      contracts := some ""
      harnesses := some ""
      file := file
      draftName := some (draftNameOf s.sourceDir file) }
  let text ← sourceText file
  Act.modifyFocus fun w => { w with source := some text }
  Effect.record (.take file text)

/-- Copies the source into the target directory. -/
def storeSource : Act Worker Unit := do
  let path ← draftPath ".rs"
  Effect.remark ("\tCopying the original file into " ++ path)
  let dir := Path.directory (← Effect.settings).targetDir
  Effect.makeDirectory dir
  Effect.writeText path ""
  Effect.writeText path (← need (·.source))

/-- Attaches the copy of the source to the conversation, in place of the file before. -/
def presentSource : Act Worker Unit := do
  Effect.remark ("\tAnnotating with " ++ (← Effect.settings).workerModel.shown)
  talk Conversation.dropMarked
  let path ← draftPath ".rs"
  talk (Conversation.attachWith annotateRequest path)
  talk (Act.modifyFocus Conversation.markLast)

/-- Whether there is no file, or no contract for it. -/
def hasNoContracts : Act Worker Bool := do
  if (← Act.focus).file == "" then return true
  else return (← need (·.contracts)) == ""

/-- Has the worker move contracts into type invariants. -/
def draftInvariants : Act Worker String := do
  if ← hasNoContracts then
    Effect.remark "No type invarinats to generate"
    return ""
  else
    Effect.remark "\tGenerating type invariants"
    talk (Conversation.tellPrompt "worker_type_invariant.txt")
    let _ ← ask
    talk (Conversation.tell closingRequest)
    setContracts (← ask)
    need (·.contracts)

def draftContracts : Act Worker String := do
  let file := (← Act.focus).file
  if file == "" then
    setContracts ""
    Effect.remark "No file to annotate"
    return ""
  else
    Effect.remark ("\nGenerating contracts for " ++ file)
    setContracts ""
    storeSource
    talk (Conversation.setSystem "" "worker_system_prompt.txt")
    talk (Conversation.tellPrompt "output_format.txt")
    presentSource
    let _ ← ask
    talk (Conversation.tellPrompt "worker_closing_refine.txt")
    setContracts (← ask)
    if (← Effect.settings).wantInvariants then setContracts (← draftInvariants)
    need (·.contracts)

/-- Has the worker look over its contracts by itself. -/
def selfReview : Act Worker String := do
  if (← Act.focus).file == "" then
    setContracts ""
    return ""
  else
    Effect.remark "\tAutorefine contracts"
    setContracts ""
    talk (Conversation.tellPrompt "worker_autorefine.txt")
    let _ ← ask
    talk (Conversation.tellPrompt "worker_closing_refine.txt")
    setContracts (← ask)
    need (·.contracts)

def remarkRefining : Effect Unit := do
  Effect.remark
    ("\t" ++ (← Effect.settings).workerModel.shown ++ " refines its solution")

/-- Has the worker refine its contracts by instructions. -/
def reviseContracts (instructions : String) : Act Worker String := do
  remarkRefining
  talk (Conversation.tell instructions)
  let _ ← ask
  talk (Conversation.tellPrompt "worker_closing_refine.txt")
  setContracts (← ask)
  need (·.contracts)

/-- The first block of Rust code in a reply: what stands between the opening fence and the next
fence, or the end. -/
def fencedCode? (reply : String) : Option String :=
  (secondField? "```rust\n" reply.toList).map fun s => String.ofList (firstField "```" s)

/-- The beginning of the module of harnesses. -/
def harnessOpening : String := "#[cfg(kani)] mod verify \x7buse super::*;\n"

/-- The function lines of the worker's contracts. -/
def listedFunctions : Act Worker (List String) := do
  let contracts ← need (·.contracts)
  return (Contracts.listedFunctions contracts.toList).map String.ofList

/-- Asks for the harness of each function; gives the code in the replies, each on a new line. -/
def draftHarnessesOf : List String → Act Worker String
  | [] => pure ""
  | f :: fs => do
    talk (Conversation.tell (harnessRequest f))
    let code := match fencedCode? (← ask) with
      | some code => "\n" ++ code
      | none => ""
    return code ++ (← draftHarnessesOf fs)

/-- The module with the harnesses; empty without any. -/
def harnessModule (code : String) : String :=
  if code == "" then "" else harnessOpening ++ code ++ "\x7d"

/-- Has the worker draft harnesses for the functions of its contracts. -/
def draftHarnesses : Act Worker String := do
  let file := (← Act.focus).file
  if ← hasNoContracts then
    setHarnesses ""
    Effect.remark "No harnesses to generate"
    return ""
  else
    Effect.remark ("Generating harnesses for " ++ file)
    setHarnesses ""
    talk (Conversation.tellPrompt "harnesses.txt")
    let _ ← ask
    setHarnesses (harnessModule (← draftHarnessesOf (← listedFunctions)))
    need (·.harnesses)

/-- Has the worker refine its harnesses by instructions. -/
def reviseHarnesses (instructions : String) : Act Worker String := do
  remarkRefining
  setHarnesses ""
  talk (Conversation.tell (instructions ++ allHarnessesRequest))
  setHarnesses (harnessModule ((fencedCode? (← ask)).getD ""))
  need (·.harnesses)

/-- The contracts without the fence, if they begin with one. -/
def unfenced (contracts : String) : String :=
  if startsWith "```rust\n" contracts.toList then (fencedCode? contracts).getD contracts
  else contracts

/-- Saves the contracts and annotates the copy of the source with them. -/
def saveContracts : Act Worker Unit := do
  let contracts ← need (·.contracts)
  if contracts != "" then
    let contracts := unfenced contracts
    setContracts contracts
    let contractsPath ← draftPath "_contracts.rs"
    let sourcePath ← draftPath ".rs"
    let annotatedPath ← draftPath "_annotated.rs"
    Effect.remark ("\tSaving the generated contracts into " ++ contractsPath)
    Effect.writeText contractsPath contracts
    Effect.remark ("\tApplying contracts to " ++ sourcePath)
    Merge.annotate sourcePath contractsPath annotatedPath

/-- Saves the harnesses and appends them to the annotated file, if there is one. -/
def saveHarnesses : Act Worker Unit := do
  let harnesses ← need (·.harnesses)
  if harnesses != "" then
    Effect.remark "\tSaving the generated harnesses"
    let harnessesPath ← draftPath "_harnesses.rs"
    let annotatedPath ← draftPath "_annotated.rs"
    let w : World := (← get).world
    if w.disk.hasFile annotatedPath then
      Effect.writeText harnessesPath harnesses
      Effect.format harnessesPath
      let content ← Effect.openFile harnessesPath
      Effect.appendText annotatedPath ""
      let text ← Effect.decode content
      Effect.appendText annotatedPath (String.ofList text)
    else setHarnesses ""

/-- Logs how many functions were annotated. -/
def logCount : Act Worker Unit := do
  if (← need (·.contracts)) != "" then
    let functions ← listedFunctions
    Effect.log ("total number of annotated functions: " ++ toString functions.length)

end Worker

end Covenant
