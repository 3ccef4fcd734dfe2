/-!
# The characters of bytes

Bytes are read as UTF-8. A byte that is no part of a character stands for itself.
-/

namespace Covenant.Text

/-- A character, or a byte that is no part of one. -/
inductive Glyph
  | char (c : Char)
  | stray (b : UInt8)
  deriving DecidableEq, Repr

def Glyph.char? : Glyph → Option Char
  | .char c => some c
  | .stray _ => none

/-- The glyphs from byte `i` on, at most `n` of them. -/
def glyphsFrom (bytes : ByteArray) : Nat → Nat → List Glyph
  | 0, _ => []
  | n + 1, i =>
    match bytes[i]? with
    | none => []
    | some b =>
      match bytes.utf8DecodeChar? i with
      | some c => .char c :: glyphsFrom bytes n (i + c.utf8Size)
      | none => .stray b :: glyphsFrom bytes n (i + 1)

def glyphs (bytes : List UInt8) : List Glyph := glyphsFrom ⟨bytes.toArray⟩ bytes.length 0

end Covenant.Text
