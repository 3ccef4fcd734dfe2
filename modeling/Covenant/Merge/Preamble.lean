import Covenant.Merge.Passes

/-!
# Imports for the attributes

The attributes need imports, and outside the core library a feature. Both are added once: a
source that imports `kani` already gets neither. They go before the first import and the first
attribute that the first sweep noted, counted in the lines it saw.
-/

namespace Covenant.Merge

open Text

def importsKani (l : Line) : Bool := startsWith "use " l && contains "kani" (l.drop 4)

/-- Whether a source with these lines has contracts already: one of them imports `kani`. -/
def isAnnotated (ls : List Line) : Bool := ls.any importsKani

/-- The line that turns the feature on. -/
def featureLine : Line := "#![feature(ub_checks)]\n".toList

def coreImports : Line :=
  ("use safety::\x7bensures,requires\x7d;\n" ++
    "#[cfg(kani)]\n" ++
    "use crate::kani;\n" ++
    "#[allow(unused_imports)]\n" ++
    "use crate::ub_checks::*;\n\n").toList

def outerImports : Line :=
  ("use safety::\x7bensures,requires\x7d;\n" ++
    "#[cfg(kani)]\n" ++
    "#[unstable(feature = \"kani\", issue = \"none\")]\n" ++
    "use core::kani;\n" ++
    "#[allow(unused_imports)]\n" ++
    "#[unstable(feature = \"ub_checks\", issue = \"none\")]\n" ++
    "use core::ub_checks::*;\n\n").toList

/-- Whether a file is of the core library, by its path. -/
def isCorePath (path : String) : Bool := contains "library-core-" path.toList

/-- Puts `x` before line `n`, if there is one. -/
def insertAt? (n : Option Nat) (x : Line) (ls : List Line) : List Line :=
  match n with
  | some n => insertAt n x ls
  | none => ls

/-- The merged lines with the imports; `core` says that the file is of the core library. -/
def Merged.withPreamble (m : Merged) (core : Bool) : List Line :=
  if core then insertAt? m.importLine coreImports m.lines
  else
    match m.attributeLine with
    | some a => insertAt? (m.importLine.map (· + 1)) outerImports (insertAt a featureLine m.lines)
    | none => insertAt? m.importLine (featureLine ++ outerImports) m.lines

/-- The lines of the annotated file, if an attribute was inserted. -/
def Merged.output? (m : Merged) (core annotated : Bool) : Option (List Line) :=
  if m.hasAttributes then some (if annotated then m.lines else m.withPreamble core) else none

end Covenant.Merge
