import Covenant.Program

/-!
# Sessions

A session runs operations one by one on a world, and keeps the parts that were made in it: a
conversation, a worker, an arbiter. It also keeps the insertions found by sweeps that were given
no list to add to; they add to one list of the session.
-/

namespace Covenant

open Text

/-- A world and the parts made in it. -/
structure Session where
  world : World
  found : List (Int × Line)
  conversation : Option Conversation
  worker : Option Worker
  arbiter : Option Arbiter

abbrev Step := EStateM Stop Session

namespace Step

variable {α σ : Type}

def onWorld (e : Effect α) : Step α := fun s =>
  match e s.world with
  | .ok a w => .ok a { s with world := w }
  | .error x w => .error x { s with world := w }

/-- An operation on a part, which has to be there. -/
def onPart (part? : Session → Option σ) (keep : σ → Session → Session) (act : Act σ α) :
    Step α :=
  fun s =>
    match part? s with
    | none => .error (.fault .unset) s
    | some part =>
      match act ⟨part, s.world⟩ with
      | .ok a t => .ok a { keep t.focus s with world := t.world }
      | .error x t => .error x { keep t.focus s with world := t.world }

def onConversation (act : Act Conversation α) : Step α :=
  onPart (·.conversation) (fun c s => { s with conversation := some c }) act

def onWorker (act : Act Worker α) : Step α :=
  onPart (·.worker) (fun w s => { s with worker := some w }) act

def onArbiter (act : Act Arbiter α) : Step α :=
  onPart (·.arbiter) (fun a s => { s with arbiter := some a }) act

def onCrew (act : Act Crew α) : Step α :=
  onPart (fun s => s.worker.bind fun w => s.arbiter.map fun a => ⟨w, a⟩)
    (fun c s => { s with worker := some c.worker, arbiter := some c.arbiter }) act

def newConversation (model : Entry) (region : Option String) (promptDir : String) : Step Unit := do
  let c ← onWorld (Conversation.connect model region promptDir)
  modify fun s => { s with conversation := some c }

def newWorker : Step Unit := do
  let w ← onWorld Worker.hire
  modify fun s => { s with worker := some w }

def newArbiter : Step Unit := do
  let a ← onWorld Arbiter.hire
  modify fun s => { s with arbiter := some a }

/-- What a sweep gives with the insertions found before it. -/
structure Matches where
  /-- Line numbers and texts. -/
  found : List (Int × Line)
  importLine : Option Nat
  attributeLine : Option Nat
  resume : Option Int

/-- A sweep that adds to the list `given`, or to the session's. -/
def sweep (source contracts : List Line) (start : Int) (given : Option (List (Int × Line))) :
    Step Matches := do
  let before := given.getD (← get).found
  let after := fun (found : List Merge.Insertion) =>
    before ++ found.map fun i => ((i.index : Int), i.text)
  let keep := fun (found : List Merge.Insertion) =>
    if given.isNone then modify fun (s : Session) => { s with found := after found } else pure ()
  match Merge.sweepAt source contracts start with
  | .error (.start f) => throw (.fault (.noSuchLine f))
  | .error (.header u) =>
    keep u.found
    throw (.fault .unreadableHeader)
  | .ok (s, resume) =>
    keep s.found
    return ⟨after s.found, s.importLine, s.attributeLine, resume⟩

end Step

/-- Runs an operation with an empty trace; gives its outcome and the session after it. -/
def Session.run {α : Type} (s : Session) (step : Step α) : Except Stop α × Session :=
  match step { s with world := { s.world with trace := {} } } with
  | .ok a s => (.ok a, s)
  | .error x s => (.error x, s)

end Covenant
