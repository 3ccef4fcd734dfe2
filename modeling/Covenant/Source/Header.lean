import Covenant.Text.Blank
import Covenant.Text.Search
import Covenant.Text.Line

/-!
# Headers of Rust items

The names that a header line gives: the type or trait that an `impl` or `trait` item is for
(its owner), and the function that a function header declares. Names are found by cutting the line
at fixed words, not by parsing it.
-/

namespace Covenant.Header

open Text

/-- The name of a type, a trait or a function. -/
abbrev Name := List Char

/-- The line without `word` at its start and without what follows a second `word`; any other line
is left as it is. -/
def dropWord (word : String) (l : Line) : Line :=
  if startsWith word (strip l) then strip ((secondField? word l).getD []) else l

def dropVisibility (l : Line) : Line :=
  if startsWith "pub(crate) " (strip l) then dropWord "pub(crate) " l
  else if startsWith "pub(super) " (strip l) then dropWord "pub(super) " l
  else dropWord "pub " l

def dropUnsafe (l : Line) : Line := dropWord "unsafe " l

/-- The first word of the text, up to its generic arguments or bounds. -/
def bareName (l : Line) : Name := firstField ":" (firstField "<" (firstField " " l))

/-- The owner in an item header without visibility and `unsafe`. There is none when the generics
of an `impl` do not end on the line. -/
def ownerOfTrimmed? (l : Line) : Option Name :=
  if startsWith "trait " l then (secondField? "trait " l).map bareName
  else if contains " for " l then (secondField? " for " l).map bareName
  else if contains "impl<" l then (secondField? "> " l).map bareName
  else if contains "impl " l then (secondField? "impl " l).map bareName
  else some l

/-- The type or trait that an item header is for. A line that is no such header is its own
owner. -/
def owner? (l : Line) : Option Name := ownerOfTrimmed? (dropUnsafe (dropVisibility l))

/-- Whether the line, without visibility, `const` and `unsafe`, declares a function. -/
def declaresFunction (l : Line) : Bool :=
  startsWith "fn " l || (startsWith "extern \"" l && contains "\" fn " l)

/-- The line without visibility, `const` and `unsafe`. -/
def trimQualifiers (l : Line) : Line := dropWord "unsafe " (dropWord "const " (dropVisibility l))

/-- The function that a header declares. A line that declares none, or that declares one without
a body, is its own name. -/
def declaredName (l : Line) : Name :=
  if endsWith ";\n" l || endsWith ";" l then l
  else
    let t := trimQualifiers l
    if declaresFunction t then lastField ' ' (firstField "<" (firstField "(" t)) else t

/-- Whether the line opens an `impl` or `trait` item. -/
def opensScope (l : Line) : Bool :=
  let t := dropVisibility (strip l)
  startsWith "impl " t || startsWith "impl<" t || startsWith "unsafe impl " t ||
    startsWith "trait " t || startsWith "unsafe trait " t || startsWith "unsafe impl<" t

end Covenant.Header
