import Covenant.Arbiter.Prompts
import Covenant.Conversation.Exchange
import Covenant.Text.Numeral

/-!
# The arbiter

The arbiter grades the worker's drafts, gives instructions to improve them, and is told when the
annotated code does not compile. A grade is the number that its reply begins with; `-1` stands for
a reply without one.
-/

namespace Covenant

open Text

structure Arbiter where
  grade : Int
  conversation : Conversation
  deriving BEq, Repr

namespace Arbiter

def hire : Effect Arbiter := do
  let s ← Effect.settings
  return ⟨-1, ← Conversation.connect s.arbiterModel s.arbiterRegion s.promptDir⟩

def talk {α : Type} (act : Act Conversation α) : Act Arbiter α :=
  Act.zoom (·.conversation) (fun c a => { a with conversation := c }) act

def ask : Act Arbiter String := talk Conversation.ask

def tell (text : String) : Act Arbiter Unit := talk (Conversation.tell text)

def setGrade (g : Int) : Act Arbiter Unit := Act.modifyFocus fun a => { a with grade := g }

/-- Makes sure that the arbiter's model is there. -/
def greet : Act Arbiter String := do
  talk (Conversation.setSystem "Hi!" "")
  talk Conversation.greet

/-- The grade in a reply: the longest number at its start, in the part before its first space. -/
def gradeIn? (digits : DigitTable) (reply : String) : Option Int :=
  leadingNumeral? digits (firstField " " reply.toList)

def requestGrade : Act Arbiter Int := do
  tell gradeRequest
  let reply ← ask
  let w : World := (← get).world
  match gradeIn? w.digits reply with
  | some g => setGrade g
  | none => pure ()
  let g := (← Act.focus).grade
  if 1 ≤ g && g ≤ 5 then Effect.remark ("\tGrade: " ++ toString g ++ "/5")
  return g

/-- Asks for the grade of an output that the arbiter has been shown. -/
def gradeOf (output : String) : Act Arbiter Int := do
  Effect.record (.grading output)
  let g ← requestGrade
  Effect.record (.graded output g)
  return g

def judgeContracts (path contracts : String) : Act Arbiter Int := do
  Effect.remark
    ("Assessing the output with " ++ (← Effect.settings).arbiterModel.shown)
  setGrade (-1)
  talk (Conversation.setSystem "" "arbiter_system_prompt.txt")
  talk Conversation.dropMarked
  talk (Conversation.attachWith (assessRequest contracts) path)
  talk (Act.modifyFocus Conversation.markLast)
  if (← Effect.settings).wantInvariants then
    talk (Conversation.tellBoth invariantsNotice "worker_type_invariant.txt")
  let _ ← ask
  gradeOf contracts

def judgeHarnesses (harnesses : String) : Act Arbiter Int := do
  Effect.remark ("Assessing the generated harnesses with " ++
    (← Effect.settings).arbiterModel.shown)
  setGrade (-1)
  tell harnessesNotice
  talk (Conversation.tellPrompt "harnesses.txt")
  let _ ← ask
  tell (harnessesRequest harnesses)
  let _ ← ask
  gradeOf harnesses

/-- Has the arbiter assess an output that was refined. -/
def judgeAgain (output : String) : Act Arbiter Int := do
  Effect.remark "\tRe-assessing the output"
  setGrade (-1)
  tell (reassessRequest output)
  let _ ← ask
  gradeOf output

/-- Asks for instructions to improve the draft, unless there is no grade or the best one. -/
def advise : Act Arbiter String := do
  let g := (← Act.focus).grade
  if g ≤ 0 || 5 ≤ g then return ""
  else
    Effect.remark "\tPreparing refinement instructions"
    tell improveRequest
    ask

/-- Logs the arbiter's reasons, if there is a grade. -/
def logReasons : Act Arbiter Unit := do
  if 0 ≤ (← Act.focus).grade then
    tell summaryRequest
    Effect.log (← ask)

/-- Whether the verifier reports that the code does not compile. -/
def reportsError (output : String) : Bool :=
  contains "error: " output.toList || contains "error[" output.toList

/-- Whether the annotated code compiles, as far as can be told. If it does not, the arbiter is
told so. -/
def compiles : Act Arbiter Bool := do
  Effect.remark "Trying to compile"
  let sourceDir := (← Effect.settings).sourceDir
  if startsWith "https://" sourceDir.toList then
    Effect.remark (Colour.yellow.paint
      "\tRemote source cannot be used for a compilation check, skipping")
    return true
  let w : World := (← get).world
  Effect.record (.run ["which", "timeout"] none)
  if w.tools.which w.disk != 0 then
    Effect.remark (Colour.yellow.paint "\tCannot find `timeout`, skipping")
    return true
  Effect.record (.run ["timeout", "40", "scripts/run-kani.sh"] (some sourceDir))
  match w.tools.kani sourceDir w.disk with
  | none => Effect.fail .notText
  | some output =>
    if !reportsError output then
      Effect.remark "\tLooks fine"
      return true
    Conversation.onInputTooLong
      (do
        tell (compilerReport output)
        let _ ← ask)
      (Effect.say (Colour.yellow.paint "Way too faulty... Nevermind") : Effect Unit)
    return false

end Arbiter

end Covenant
