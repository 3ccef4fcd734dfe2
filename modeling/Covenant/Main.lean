import Covenant.Program

/-!
# The command line

`annotate SOURCE CONTRACTS OUTPUT` merges a contracts file into a source file.
`generate REPLIES [SWITCHES]` drafts contracts with the replies of a transcript: a line `=== worker`
or `=== arbiter` starts the next reply of that model, and the lines up to the next such line are
its text.

The files are read before the run and written after it.
-/

namespace Covenant.Main

def load? (path : String) : IO (Option Content) := do
  try return some (Content.ofBytes (← IO.FS.readBinFile path))
  catch _ => return none

/-- The disk with the files that can be read at these paths. -/
def loadFiles (paths : List String) : IO Disk := do
  let mut disk : Disk := { nodes := [] }
  for path in paths do
    if let some content ← load? path then disk := disk.provide path content
    else disk := disk.ensureDirectory (Location.ofPath path).parent
  return disk

/-- The paths of the files in the working directory, at most `depth` directories down. -/
def filesBelow : Nat → String → IO (List String)
  | 0, _ => return []
  | depth + 1, dir => do
    let here ← IO.currentDir
    let mut paths := []
    for entry in ← (here / dir).readDir do
      let path := if dir == "" then entry.fileName else dir ++ "/" ++ entry.fileName
      if ← entry.path.isDir then paths := paths ++ (← filesBelow depth path)
      else paths := paths ++ [path]
    return paths

/-- The path of a base, with a slash at its end unless it is the working directory. -/
def basePath : Base → String
  | .root => "/"
  | .above n => String.join (List.replicate n "../")

/-- Writes the files that a run changed. -/
def store (old new : Disk) : IO Unit := do
  for (location, node) in new.nodes do
    let path := basePath location.base ++ String.intercalate "/" location.names
    match node with
    | .directory => IO.FS.createDirAll path
    | .file content =>
      if old.node? location != some (.file content) then
        IO.FS.writeBinFile path ⟨content.bytes.toArray⟩

/-- The replies of the models in a transcript: the worker's and the arbiter's. -/
def scripts (transcript : String) : List Script :=
  let step := fun (replies : List (String × String)) (line : Text.Line) =>
    if Text.startsWith "=== " line then
      (String.ofList (Text.strip (line.drop 4)), "") :: replies
    else
      match replies with
      | (who, text) :: rest => (who, text ++ String.ofList line) :: rest
      | [] => []
  let replies := ((Text.lines transcript.toList).foldl step []).reverse
  ["worker", "arbiter"].map fun who =>
    (replies.filter fun r => r.1 == who).map fun r =>
      .response (Datum.saying (String.ofList (Text.dropEnd "\n" r.2.toList)))

/-- Runs an operation on the files of the disk; gives the exit status. There is no web, and the
standard input is taken to be empty. -/
def perform (disk : Disk) (scripts : List Script) (act : Effect Unit) : IO UInt32 := do
  let world : World :=
    { disk := disk
      web := fun _ => .status 404 "Not Found"
      tools := {}
      clock := toString (← IO.monoMsNow)
      home := (← IO.getEnv "HOME").getD "/"
      input := .text ""
      digits := .unicode15
      terminal := ← (← IO.getStdout).isTty
      scripts := scripts
      settings := Settings.default
      log := .closed }
  let (stop, after) := match act world with
    | .ok _ w => (none, w)
    | .error e w => (some e, w)
  store disk after.disk
  (← IO.getStdout).putStr after.trace.out
  (← IO.getStderr).putStr after.trace.err
  match stop with
  | none => return 0
  | some (.exit status) => return status.toUInt32
  | some (.fault fault) =>
    (← IO.getStderr).putStrLn fault.message
    return 1

end Covenant.Main

open Covenant in
def main (arguments : List String) : IO UInt32 := do
  match arguments with
  | "generate" :: transcript :: switches =>
    let disk ← Main.loadFiles (← Main.filesBelow 16 "")
    let replies ← IO.FS.readFile transcript
    Main.perform disk (Main.scripts replies) (Program.generateAlone switches)
  | "annotate" :: paths =>
    Main.perform (← Main.loadFiles paths) [] (Program.annotate paths)
  | _ =>
    (← IO.getStderr).putStrLn
      "usage: annotate SOURCE CONTRACTS OUTPUT | generate REPLIES [SWITCHES]"
    return 2
