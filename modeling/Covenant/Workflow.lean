import Covenant.Arbiter.Basic
import Covenant.Settings.Load
import Covenant.Worker.Basic

/-!
# From a source file to an annotated one

The worker drafts contracts for a file and the arbiter grades them, with at most three rounds of
refinement. A draft that is good enough is saved and merged into a copy of the source; harnesses
are added if the arbiter finds them excellent. The annotated file can replace the source, which is
reverted when it does not compile.
-/

namespace Covenant

open Text

/-- The worker and the arbiter. -/
structure Crew where
  worker : Worker
  arbiter : Arbiter
  deriving BEq, Repr

namespace Crew

def hire : Effect Crew := do
  let worker ← Worker.hire
  let arbiter ← Arbiter.hire
  return ⟨worker, arbiter⟩

def byWorker {α : Type} (act : Act Worker α) : Act Crew α :=
  Act.zoom (·.worker) (fun w c => { c with worker := w }) act

def byArbiter {α : Type} (act : Act Arbiter α) : Act Crew α :=
  Act.zoom (·.arbiter) (fun a c => { c with arbiter := a }) act

def greet : Act Crew Unit := do
  let _ ← byWorker Worker.greet
  let _ ← byArbiter Arbiter.greet

end Crew

namespace Workflow

open Crew

/-- The grade from which contracts are saved. -/
def passingGrade : Int := 4

/-- The grade from which harnesses are saved. -/
def excellentGrade : Int := 5

/-- The most rounds of refinement. -/
def maxRounds : Nat := 3

def isOnWeb (file : String) : Bool :=
  startsWith "https://" file.toList || startsWith "http://" file.toList

/-- Whether the file is there. On the web, a file with an error status is not. -/
def isAvailable (file : String) : Effect Bool := do
  if isOnWeb file then
    tryCatch
      (do
        let _ ← Effect.fetch file
        return true)
      fun stop =>
        match stop with
        | .fault (.httpStatus _ _) => return false
        | _ => throw stop
  else return (← get).disk.hasFile file

def logGrade (file what : String) (grade : Int) : Effect Unit :=
  Effect.log (file ++ ": " ++ what ++ ": " ++ toString grade ++ "/5")

/-- Rounds of refinement as long as there are instructions, at most `n`. Gives the grade at the
end, and how many rounds were left. -/
def refine (grade : Int) : Nat → Act Crew (Int × Nat)
  | 0 => return (grade, 0)
  | n + 1 => do
    let instructions ← byArbiter Arbiter.advise
    if instructions == "" then return (grade, n + 1)
    else
      let _ ← byWorker (Worker.reviseContracts instructions)
      let contracts ← byWorker Worker.selfReview
      refine (← byArbiter (Arbiter.judgeAgain contracts)) n

/-- Has contracts drafted, assessed and refined. Gives the final grade. -/
def draft (file : String) : Act Crew Int := do
  byWorker (Worker.take file)
  let _ ← byWorker Worker.draftContracts
  let contracts ← byWorker Worker.selfReview
  let path ← byWorker (Worker.draftPath ".rs")
  let initial ← byArbiter (Arbiter.judgeContracts path contracts)
  logGrade file "initial grade" initial
  byArbiter Arbiter.logReasons
  let (grade, left) ← refine initial maxRounds
  logGrade file "final grade" grade
  Effect.log (file ++ ": number of refinement rounds: " ++ toString (maxRounds + 1 - left))
  byArbiter Arbiter.logReasons
  byWorker Worker.logCount
  return grade

/-- Has harnesses assessed, and refined once. Gives the final grade. -/
def settleHarnesses (file harnesses : String) : Act Crew Int := do
  let initial ← byArbiter (Arbiter.judgeHarnesses harnesses)
  logGrade file "initial grade (harnesses)" initial
  byArbiter Arbiter.logReasons
  if initial < excellentGrade then
    let instructions ← byArbiter Arbiter.advise
    if instructions == "" then return initial
    else
      let harnesses ← byWorker (Worker.reviseHarnesses instructions)
      byArbiter (Arbiter.judgeAgain harnesses)
  else return initial

/-- Has harnesses drafted, and saves excellent ones. -/
def addHarnesses (file : String) : Act Crew Unit := do
  let harnesses ← byWorker Worker.draftHarnesses
  if harnesses == "" then Effect.log (file ++ ": no harnesses to generate")
  else
    let grade ← settleHarnesses file harnesses
    logGrade file "final grade (harnesses)" grade
    byArbiter Arbiter.logReasons
    if grade == excellentGrade then byWorker Worker.saveHarnesses

/-- Takes the source back from the repository. -/
def revert (file : String) : Effect Unit := do
  Effect.remark (Colour.yellow.paint "Compilation failed. Reverting the changes")
  Effect.log (file ++ ": compilation failed")
  Effect.checkout (← Effect.settings).sourceDir file

/-- Replaces a local source by the annotated file, if the settings want it. -/
def replaceSource (file : String) : Act Crew Unit := do
  let annotated ← byWorker (Worker.draftPath "_annotated.rs")
  let s ← Effect.settings
  let w : World := (← get).world
  if !isOnWeb file && s.replaceSource && w.disk.hasFile annotated then
    if s.verbose then
      Effect.print "Replacing the original file"
      Effect.print " "
      Effect.say file
    Effect.copyOnto annotated file
    if s.checkCompile then
      if !(← byArbiter Arbiter.compiles) then revert file

/-- Handles one file. -/
def processFile (file : String) : Act Crew Unit := do
  if ← isAvailable file then
    let grade ← draft file
    if grade < passingGrade then
      Effect.remark (Colour.yellow.paint "The annotation is not good enough. Skipping the rest")
    else
      byWorker Worker.saveContracts
      if (← Effect.settings).wantHarnesses then addHarnesses file
      replaceSource file
  else
    Effect.remark (Colour.yellow.paint
      ("\nFile " ++ String.ofList (dropEnd "\n" file.toList) ++ " not found. Skipping"))

def skipLongFile : Effect Unit := do
  Effect.say (Colour.yellow.paint
    "The model returned the following errors: Input is too long for requested model")
  Effect.say "You probably attached a large file"
  Effect.remark "Skipping"

/-- Handles the files; one that is too long for the model is skipped. -/
def processFiles : List String → Act Crew Unit
  | [] => pure ()
  | f :: fs => do
    Conversation.onInputTooLong (processFile f) (skipLongFile : Effect Unit)
    processFiles fs

end Workflow

end Covenant
