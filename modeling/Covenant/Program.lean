import Covenant.Workflow

/-!
# The two programs

`annotate` merges a contracts file into a source file. `generate` has contracts drafted for the
files of its settings. Its output is made plain if it does not go to a terminal.
-/

namespace Covenant.Program

/-- Runs an operation whose output is made plain unless it goes to a terminal. -/
def styled {σ : Type} (act : Act σ Unit) : Act σ Unit := fun s =>
  match act { s with world := { s.world with plain := !s.world.terminal } } with
  | .ok a t => .ok a { t with world := { t.world with plain := s.world.plain } }
  | .error e t => .error e { t with world := { t.world with plain := s.world.plain } }

def endOnInterrupt {σ : Type} (act : Act σ Unit) : Act σ Unit :=
  tryCatch act fun stop =>
    match stop with
    | .fault .interrupted => (Effect.exit 1 : Effect Unit)
    | _ => throw stop

def printSettings : Effect Unit := do
  for line in (← Effect.settings).describe do
    Effect.say line

def staff : Act (Option Crew) Unit := do
  let crew ← Crew.hire
  Act.modifyFocus fun _ => some crew

/-- An operation on the crew, which has to be there. -/
def byCrew {α : Type} (act : Act Crew α) : Act (Option Crew) α := do
  match ← Act.focus with
  | some crew => Act.zoom (·.getD crew) (fun c _ => some c) act
  | none => (Effect.fail .unset : Effect α)

/-- Drafts contracts for the files of the settings, with these command-line arguments. The crew is
there from the moment that it is hired. -/
def generate (arguments : List String) : Act (Option Crew) Unit :=
  endOnInterrupt <| styled do
    Settings.configureFrom arguments
    if (← Effect.settings).verbose then printSettings
    let w : World := (← get).world
    Effect.log (w.clock ++ " start annotating")
    staff
    byCrew Crew.greet
    byCrew (Workflow.processFiles (← Effect.settings).files)

/-- Runs `generate` and gives the crew up. -/
def generateAlone (arguments : List String) : Effect Unit := fun w =>
  match generate arguments ⟨none, w⟩ with
  | .ok a s => .ok a s.world
  | .error e s => .error e s.world

/-- Merges a contracts file into a source file, with these command-line arguments. -/
def annotate (arguments : List String) : Effect Unit := do
  match arguments with
  | source :: contracts :: output :: _ => Merge.annotate source contracts output
  | _ =>
    Effect.say
      "Usage: python add_contracts.py <rust_file.rs> <contracts_file.rs> <output_file.rs>"
    Effect.exit 1

end Covenant.Program
