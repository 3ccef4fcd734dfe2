import Covenant.Text.Glyph
import Covenant.Text.Line

/-!
# File contents

A file holds a text, or bytes that are no text in UTF-8. Appending a text keeps the kind: bytes
that are no text do not become one by what follows them.
-/

namespace Covenant

/-- What a file holds. -/
inductive Content
  | text (s : String)
  | binary (bytes : List UInt8)
  deriving DecidableEq, Repr

namespace Content

def ofBytes (bytes : ByteArray) : Content :=
  match String.fromUTF8? bytes with
  | some s => .text s
  | none => .binary bytes.toList

/-- The bytes of a text in UTF-8. -/
def utf8 (s : String) : List UInt8 := s.toUTF8.toList

def bytes : Content → List UInt8
  | .text s => utf8 s
  | .binary bs => bs

/-- The content with a text after it. -/
def append (c : Content) (t : String) : Content :=
  match c with
  | .text s => .text (s ++ t)
  | .binary bs => .binary (bs ++ utf8 t)

/-- The text as it is stored. -/
def raw? : Content → Option String
  | .text s => some s
  | .binary _ => none

/-- The text with unified newlines. -/
def chars? (c : Content) : Option (List Char) := c.raw?.map fun s => Text.unifyNewlines s.toList

/-- The characters at the start of a line of bytes. -/
def readable (line : List UInt8) : List Char :=
  ((Text.glyphs line).map Text.Glyph.char?).takeWhile Option.isSome |>.filterMap id

/-- The lines that a search for a line sees. A zero byte ends a line, and where the content is no
text each line is seen up to its first byte that is no part of a character. -/
def searched : Content → List (List Char)
  | .text s => Text.pieces (fun c => c == '\n' || c == '\x00') s.toList
  | .binary bs => (Text.pieces (fun b => b == 10 || b == 0) bs).map readable

end Content

end Covenant
