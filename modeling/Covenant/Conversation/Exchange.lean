import Covenant.Conversation.Basic

/-!
# Asking the model

`ask` sends the messages and adds the reply. A request that fails for a while is repeated
after a pause. One that is rejected is repeated once with the messages from the mark on;
a second rejection ends the attempt, with nothing but the marked message left, or without it when
the input is still too long. Other refusals end the program or are passed on.

Every repetition uses up one reply of the script, so the script bounds the number of requests.
-/

namespace Covenant.Conversation

open Text

/-- Seconds between two attempts. -/
def pause : Nat := 240

/-- The codes of refusals that pass. -/
def transientCodes : List String :=
  ["ThrottlingException", "ServiceUnavailableException", "ReadTimeoutError"]

def field (d : Datum) (name : String) : Effect Datum :=
  match d with
  | .record fields =>
    match fields.lookup name with
    | some v => pure v
    | none => Effect.fail (.missingField name)
  | _ => Effect.fail .wrongKind

def isTextWord : Datum → Bool
  | .text s => s == "text"
  | _ => false

/-- The text of one part of a reply; a part without a text has an empty one. -/
def textOfPart : Datum → Effect String
  | .record fields =>
    match fields.lookup "text" with
    | some (.text s) => pure s
    | some _ => Effect.fail .wrongKind
    | none => pure ""
  | .text s => if contains "text" s.toList then Effect.fail .wrongKind else pure ""
  | .list items => if items.any isTextWord then Effect.fail .wrongKind else pure ""
  | _ => Effect.fail .wrongKind

/-- The texts of the parts, one after the other. -/
def textOfParts : List Datum → Effect String
  | [] => pure ""
  | p :: ps => do
    let s ← textOfPart p
    return s ++ (← textOfParts ps)

def isEmptyContent : Datum → Effect Bool
  | .list items => pure items.isEmpty
  | .record fields => pure fields.isEmpty
  | .text s => pure (s == "")
  | _ => Effect.fail .wrongKind

def textOfContent : Datum → Effect String
  | .list items => textOfParts items
  | .record _ => Effect.fail .recordForList
  | _ => pure ""

/-- Takes a response: adds its message, unless that is empty, and gives its text. -/
def receive (body : Datum) : Act Conversation String := do
  let message ← field (← field body "output") "message"
  let content ← field message "content"
  if ← isEmptyContent content then return ""
  Act.modifyFocus fun c => c.push (.reply message)
  textOfContent content

def waitAfter (cause : String) : Effect Unit := do
  Effect.remark ("Throttling (" ++ cause ++ ")... let me wait and try again in 4 minutes")
  Effect.record (.wait pause)

def closeAndExit {α : Type} : Effect α := do
  Effect.record .close
  Effect.exit 1

/-- What to do after a refusal. -/
inductive Verdict
  /-- Ask again. -/
  | retry (shortened : Bool)
  /-- Go on without a reply. -/
  | giveUp
  deriving DecidableEq, Repr

/-- What to do when the messages are rejected. `shortened` says that they are those from the
mark on. -/
def rejected (message : Option String) (shortened : Bool) : Act Conversation Verdict := do
  match message with
  | none => Effect.fail (.missingField "Message")
  | some message =>
    let mentions := fun (s : String) => contains s message.toList
    if mentions "model identifier is invalid" then
      Effect.say (Colour.red.paint message)
      closeAndExit
    else if mentions "with on-demand throughput" then
      Effect.say (Colour.red.paint message)
      Effect.say "Try prefixing your model ID with 'us.'"
      Effect.exit 1
    else if shortened && mentions "Input is too long for requested model" then
      Act.modifyFocus dropFromMark
      Effect.fail .inputTooLong
    else if shortened then
      Act.modifyFocus keepMarkedOnly
      return .giveUp
    else
      Effect.remark (Colour.yellow.paint "The conversation is way too long, let me shorten it")
      Act.modifyFocus dropBeforeMark
      return .retry true

/-- What to do after a refusal with this code. -/
def refused (code : String) (message : Option String) (shortened : Bool) :
    Act Conversation Verdict := do
  if code == "AccessDeniedException" then
    let c ← Act.focus
    Effect.say (Colour.red.paint "Access Denied")
    Effect.say ("Make sure that the model (" ++ c.model.shown ++
      ") is available in your region (" ++ (Entry.ofOption c.region).shown ++ ")")
    Effect.say "Configure the region in the config file: [worker_region|arbiter_region] = region"
    closeAndExit
  else if transientCodes.elem code then
    waitAfter code
    return .retry shortened
  else if code == "ExpiredTokenException" then
    Effect.say (Colour.red.paint "Your credentials have expired")
    Effect.say "Please run `ada cred update --account <account> --role <role> --once`"
    closeAndExit
  else if code == "UnrecognizedClientException" then
    Effect.say (Colour.red.paint "Unrecognized error")
    Effect.say "Try runing `mwinit` first"
    closeAndExit
  else if code == "ValidationException" then rejected message shortened
  else Effect.fail (.refused code message)

/-- Sends the messages, if there are any, and goes on with `next`. -/
def asking (next : Act Conversation String) : Act Conversation String := do
  let c ← Act.focus
  if c.messages.isEmpty then
    Effect.remark (Colour.yellow.paint "No messages to send")
    return ""
  else
    Effect.record (.request c.model c.system c.messages c.mark)
    next

def keepScript (rest : Script) : Act Conversation Unit :=
  Act.modifyFocus fun c => { c with script := rest }

/-- Asks until there is an answer. `shortened` says that the messages are those from the
mark on. -/
def exchange : Script → Bool → Act Conversation String
  | [], _ => asking (Effect.fail .noReplyLeft : Effect String)
  | reply :: rest, shortened =>
    asking do
      match reply with
      | .always body => receive body
      | .response body =>
        keepScript rest
        receive body
      | .timeout =>
        keepScript rest
        waitAfter "TimeoutError"
        exchange rest shortened
      | .interrupt =>
        keepScript rest
        Effect.fail .interrupted
      | .refusal code message =>
        keepScript rest
        match ← refused code message shortened with
        | .retry shortened => exchange rest shortened
        | .giveUp => return ""

/-- Sends the messages and adds the reply; gives its text. -/
def ask : Act Conversation String := do exchange (← Act.focus).script false

def greet : Act Conversation String := do
  tell "Hi, are you there?"
  ask

/-- Goes on with `next` when the input is too long for the model. -/
def onInputTooLong {σ : Type} (act next : Act σ Unit) : Act σ Unit :=
  tryCatch act fun stop =>
    match stop with
    | .fault .inputTooLong => next
    | _ => throw stop

end Covenant.Conversation
