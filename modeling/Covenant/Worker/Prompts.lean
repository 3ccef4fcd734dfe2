import Covenant.Text.Paragraph

/-!
# What the worker is told

The messages to the worker that are not in prompt files.
-/

namespace Covenant.Worker

open Text

/-- Goes with the attached source file. -/
def annotateRequest : String :=
  paragraph 12 12
    ["Please perform the translation of safety comments as described above on the",
      "following source code."]

/-- Asks for contracts and type invariants in their formats. -/
def closingRequest : String :=
  paragraph 12 8
    ["Please print your solution without any explanations.",
      "First, print the valid contracts in the original format you used.",
      "Then, print the type invariants in the format I described above."]

/-- Asks for the harness of one function. -/
def harnessRequest (function : String) : String :=
  paragraph 16 0
    ["Using the knowledge gained from steps 1-3, please write a `kani::proof_for_contract`",
      "for the function " ++ function ++
        " that you annotated. Do not wrap it into `verify` module,",
      "just print the Rust code of the proof:"] ++
  spaces 16 ++
  paragraph 16 12
    ["```rust",
      "<your code>",
      "```",
      "",
      "Notes:",
      "- In your harnesses, for the bound for verification use small values: typically 10 is enough.",
      "- `kani::any()` can be used only with primitive types.",
      "- In the proof you cannot use types that are not defined in the scope, e.g., `Vec` is not",
      "  allowed."]

/-- Goes after the instructions for better harnesses. -/
def allHarnessesRequest : String :=
  paragraph 8 8
    ["Correct and print ALL your harnesses:",
      "```rust",
      "<your_code> ",
      "```"]

end Covenant.Worker
