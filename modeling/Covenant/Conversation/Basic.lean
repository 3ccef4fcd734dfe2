import Covenant.Text.Base64
import Covenant.World.Basic

/-!
# Conversations

A conversation with a model: its messages, oldest first, and its system texts. One message may be
marked; it is kept when the conversation is cut down. The mark is the number of that message, and
`-1` when none is marked. Other negative numbers count from the end.
-/

namespace Covenant

structure Conversation where
  messages : List Message
  mark : Int
  promptDir : String
  system : List String
  model : Entry
  region : Option String
  /-- The replies that the client has left. -/
  script : Script
  deriving BEq, Repr

namespace Conversation

/-- The place of number `k` among `n` messages; negative numbers count from the end, and a place
beyond an end is that end. -/
def nearest (n : Nat) (k : Int) : Nat := if k < 0 then (n + k).toNat else min k.toNat n

def isMarked (c : Conversation) : Bool :=
  c.mark != -1 && c.mark < (c.messages.length : Int)

/-- The messages from the marked one on; all of them if none is marked. -/
def fromMark (c : Conversation) : List Message :=
  if c.isMarked then c.messages.drop (nearest c.messages.length c.mark) else c.messages

def push (c : Conversation) (m : Message) : Conversation := { c with messages := c.messages ++ [m] }

@[simp]
theorem messages_push (c : Conversation) (m : Message) :
    (c.push m).messages = c.messages ++ [m] := rfl

@[simp]
theorem mark_push (c : Conversation) (m : Message) : (c.push m).mark = c.mark := rfl

def markLast (c : Conversation) : Conversation :=
  { c with mark := (c.messages.length : Int) - 1 }

@[simp]
theorem messages_markLast (c : Conversation) : c.markLast.messages = c.messages := rfl

/-- After it a message is marked, unless there is no message. -/
theorem isMarked_markLast (c : Conversation) :
    c.markLast.isMarked = true ↔ c.messages ≠ [] := by
  have h : c.messages ≠ [] ↔ 0 < c.messages.length := List.length_pos_iff.symm
  rw [h, isMarked, markLast, Bool.and_eq_true, bne_iff_ne, decide_eq_true_iff]
  dsimp only
  omega

/-- The conversation without its marked message. There is none to take out when its number counts
back beyond the first message. -/
def withoutMarked (c : Conversation) : Except PlaceFault Conversation :=
  if c.isMarked then
    (place c.messages.length c.mark).map fun k =>
      { c with
        messages := c.messages.eraseIdx k
        mark := -1 }
  else .ok c

/-- Takes out the marked message and all after it. -/
def dropFromMark (c : Conversation) : Conversation :=
  if c.isMarked then
    { c with
      messages := c.messages.take (nearest c.messages.length c.mark)
      mark := -1 }
  else c

/-- Takes out all before the marked message. -/
def dropBeforeMark (c : Conversation) : Conversation :=
  if c.isMarked then { c with messages := c.fromMark, mark := 0 } else c

/-- Takes out all but the marked message. -/
def keepMarkedOnly (c : Conversation) : Conversation :=
  if c.isMarked then
    let c := c.dropBeforeMark
    { c with messages := c.messages.take 1 }
  else c

/-- Starts a conversation: makes a client, which takes the next script. -/
def connect (model : Entry) (region : Option String) (promptDir : String) :
    Effect Conversation := do
  Effect.record (.connect region)
  let script ← Effect.takeScript
  return {
    messages := []
    mark := -1
    promptDir := if Text.endsWith "/" promptDir.toList then promptDir else promptDir ++ "/"
    system := [""]
    model := model
    region := region
    script := script }

/-- The bytes of a file in base 64. -/
def base64Of (path : String) : Effect String := do
  return Text.base64 (← Effect.openFile path).bytes

/-- The document part for a file. -/
def documentOf (path : String) : Effect Part := do
  return .document (Path.stem path) (← base64Of path)

/-- Adds a message with these parts. -/
def add (parts : List Part) : Act Conversation Unit := Act.modifyFocus fun c => c.push (.user parts)

/-- Adds a message with the text, unless it is empty, and one with the text of the prompt file,
unless it has no name. -/
def tellBoth (text file : String) : Act Conversation Unit := do
  if text != "" then add [.text text]
  if file != "" then
    let prompt ← Effect.readText ((← Act.focus).promptDir ++ file)
    add [.text prompt]

/-- Adds a message with the text, unless it is empty. -/
def tell (text : String) : Act Conversation Unit := tellBoth text ""

def tellPrompt (file : String) : Act Conversation Unit := tellBoth "" file

def attach (path : String) : Act Conversation Unit := do
  let document ← documentOf path
  add [document]

/-- Adds a message with a text and a file. -/
def attachWith (text path : String) : Act Conversation Unit := do
  let document ← documentOf path
  add [.text text, document]

/-- Makes the text, or that of a prompt file, the only system text. -/
def setSystem (text file : String) : Act Conversation Unit := do
  if text != "" then Act.modifyFocus fun c => { c with system := [text] }
  else if file != "" then
    let prompt ← Effect.readText ((← Act.focus).promptDir ++ file)
    Act.modifyFocus fun c => { c with system := [prompt] }

def dropMarked : Act Conversation Unit := do
  match (← Act.focus).withoutMarked with
  | .ok c => Act.modifyFocus fun _ => c
  | .error f => Effect.fail (.noSuchMessage f)

end Conversation

end Covenant
