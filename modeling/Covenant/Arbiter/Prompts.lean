import Covenant.Text.Paragraph

/-!
# What the arbiter is told

The messages to the arbiter that are not in prompt files.
-/

namespace Covenant.Arbiter

open Text

def assessRequest (contracts : String) : String :=
  paragraph 12 12
    ["Please assess the following contracts generated by the worker for the attached file:"] ++
  "\n" ++ contracts

/-- Tells of the worker's instructions on type invariants. -/
def invariantsNotice : String :=
  paragraph 16 16
    ["In addition to what you already know, the worker was also asked to generate type",
      "invariants. The text bellow contains the instructions the worker received. You",
      "should take this into account in your evaluation of the worker. Please read the",
      "instructions carefully, as they directly impact the expected output format. In",
      "particular, the worker MUST NOT output contracts for functions that are not",
      "unsafe - in such cases, it may only generate type invariants. Furthermore, if",
      "the worker has converted certain contracts into type invariants, those contracts",
      "MUST be removed from the list of generated contracts, leaving only the",
      "corresponding invariants.",
      "",
      "Additional Assessment Criterion:",
      "Type Invariants and Safe Functions: The worker must not generate contracts for safe",
      "functions. Instead, it must generate the corresponding type invariants and output",
      "them in the correct format.",
      "Importance: IMPORTANT",
      "",
      "Below are the instructions provided to the worker."]

/-- Tells of the worker's instructions on harnesses. -/
def harnessesNotice : String :=
  paragraph 12 12
    ["I will send you the instructions that the worker follow to generate harnesses",
      "(proofs) for the functions it annotated. Please carefully study these instructions,",
      "as I will then ask you to assess the harnesses generated by the worker."]

def harnessesRequest (harnesses : String) : String :=
  paragraph 12 12
    ["IMPORTANT:",
      "",
      "1. Contract harnesses MUST NOT use `assert` or `assume` (`kani::assume`). Kani",
      "   implicitly assumes that preconditions hold.",
      "2. If the worker wraps harnesses in the `verify` module, that is acceptable and",
      "   you should not complain.",
      "3. Just like the code of contracts, the code of harnesses MUST be valid Rust.",
      "   For instance, worker can only call a method on a variable if that method is",
      "   defined for the type of that variable.",
      "4. `kani::any()` can be used only with primitive types.",
      "",
      "And now please assess the following harnesses generated by the worker:",
      ""] ++
  harnesses ++ paragraph 12 12 []

def reassessRequest (output : String) : String :=
  paragraph 12 12 ["Please re-assess the following updated worker's output:"] ++ "\n" ++ output

/-- Asks for instructions to the worker. -/
def improveRequest : String :=
  paragraph 12 12
    ["Provide precise, actionable instructions that the worker should follow",
      "to improve or correct its output.",
      "",
      "Print only these instructions."]

def gradeRequest : String :=
  paragraph 12 12
    ["Print your grade. Print only the number between 1 and 5 without any explanation."]

/-- Asks for the reasons of the grade. -/
def summaryRequest : String :=
  paragraph 12 12
    ["Print short (one to two phrases long) summary of why you grade it that way."]

/-- Reports what the compiler printed. -/
def compilerReport (output : String) : String :=
  paragraph 16 16
    ["The annotated code does not compile! Please review the compilation messages below carefully.",
      "You should ensure that the worker avoids repeating these or similar mistakes in the future.",
      "Later, you may be asked to guide the worker in fixing these specific issues.",
      "",
      "Rust compiler output:"] ++
  output

end Covenant.Arbiter
