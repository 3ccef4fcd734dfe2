import Covenant.Text.Blank
import Covenant.Text.Case
import Covenant.Text.Word

/-!
# Classes of characters

The twelve named classes of characters, over Unicode 14. Every assigned character is a control
character or can be printed; what is printed is a blank, a letter or digit, or punctuation.
-/

namespace Covenant.Text

inductive CharClass
  | alnum
  | alpha
  | blank
  | cntrl
  | digit
  | graph
  | lower
  | print
  | punct
  | space
  | upper
  | xdigit
  deriving DecidableEq, Repr

/-- Ranges of the capitals without a lower-case form. They may hold unassigned characters. -/
def loneCapitalRanges : List (Nat × Nat) :=
  [(0x3d2, 0x3d4), (0x2102, 0x2102), (0x2107, 0x2107), (0x210b, 0x210d), (0x2110, 0x2112),
    (0x2115, 0x2115), (0x2119, 0x211d), (0x2124, 0x2124), (0x2128, 0x2128), (0x212c, 0x212d),
    (0x2130, 0x2131), (0x2133, 0x2133), (0x213e, 0x213f), (0x2145, 0x2145), (0x1d400, 0x1d419),
    (0x1d434, 0x1d44d), (0x1d468, 0x1d481), (0x1d49c, 0x1d4b5), (0x1d4d0, 0x1d4e9),
    (0x1d504, 0x1d51c), (0x1d538, 0x1d550), (0x1d56c, 0x1d585), (0x1d5a0, 0x1d5b9),
    (0x1d5d4, 0x1d5ed), (0x1d608, 0x1d621), (0x1d63c, 0x1d655), (0x1d670, 0x1d689),
    (0x1d6a8, 0x1d6c0), (0x1d6e2, 0x1d6fa), (0x1d71c, 0x1d734), (0x1d756, 0x1d76e),
    (0x1d790, 0x1d7a8), (0x1d7ca, 0x1d7ca), (0x1f130, 0x1f149), (0x1f150, 0x1f169),
    (0x1f170, 0x1f189)]

/-- Ranges of the small letters that modify another letter. They may hold unassigned characters. -/
def modifierRanges : List (Nat × Nat) :=
  [(0x2b0, 0x2b8), (0x2c0, 0x2c1), (0x2e0, 0x2e4), (0x37a, 0x37a), (0x10fc, 0x10fc),
    (0x1d2c, 0x1d6a), (0x1d78, 0x1d78), (0x1d9b, 0x1dbf), (0x2071, 0x2071), (0x207f, 0x207f),
    (0x2090, 0x209c), (0x2c7c, 0x2c7d), (0xa69c, 0xa69d), (0xa770, 0xa770), (0xa7f2, 0xa7f4),
    (0xa7f8, 0xa7f9), (0xab5c, 0xab5f), (0xab69, 0xab69), (0x10780, 0x10780), (0x10783, 0x107ba)]

/-- Ranges of the characters that only format a text, and of those for private use. -/
def formatRanges : List (Nat × Nat) :=
  [(0xad, 0xad), (0x600, 0x605), (0x61c, 0x61c), (0x6dd, 0x6dd), (0x70f, 0x70f), (0x890, 0x891),
    (0x8e2, 0x8e2), (0x180e, 0x180e), (0x200b, 0x200f), (0x202a, 0x202e), (0x2060, 0x2064),
    (0x2066, 0x206f), (0xe000, 0xf8ff), (0xfeff, 0xfeff), (0xfff9, 0xfffb), (0x110bd, 0x110bd),
    (0x110cd, 0x110cd), (0x13430, 0x13438), (0x1bca0, 0x1bca3), (0x1d173, 0x1d17a),
    (0xe0001, 0xe0001), (0xe0020, 0xe007f), (0xf0000, 0xffffd), (0x100000, 0x10fffd)]

/-- Whether the character is a blank within a line. -/
def isGap (c : Char) : Bool :=
  let n := c.toNat
  n == 9 || n == 0x20 || n == 0x1680 || (0x2000 ≤ n && n ≤ 0x200a && n != 0x2007) || n == 0x205f ||
    n == 0x3000

/-- Whether the character controls something: it cannot be printed. -/
def isControl (c : Char) : Bool :=
  let n := c.toNat
  n ≤ 0x1f || (0x7f ≤ n && n ≤ 0x9f) || n == 0x2028 || n == 0x2029

/-- Whether the character can be printed: it is assigned and no control character. -/
def canPrint (c : Char) : Bool :=
  isPrintable c || inRanges formatRanges c || (isBlank c && !isControl c)

def isCapital (c : Char) : Bool :=
  lowerByTable c != c || c == 'İ' || (inRanges loneCapitalRanges c && isPrintable c)

def isSmall (c : Char) : Bool :=
  upperByTable c != c || (inRanges modifierRanges c && isPrintable c) ||
    (inRanges casedRanges c && !isCapital c)

namespace CharClass

def ofName? (name : String) : Option CharClass :=
  [("alnum", alnum), ("alpha", alpha), ("blank", blank), ("cntrl", cntrl), ("digit", digit),
    ("graph", graph), ("lower", lower), ("print", print), ("punct", punct), ("space", space),
    ("upper", upper), ("xdigit", xdigit)].lookup name

def holds (k : CharClass) (c : Char) : Bool :=
  match k with
  | alnum => isWord c && c != '_'
  | alpha => isWord c && c != '_' && !c.isDigit
  | blank => isGap c
  | cntrl => isControl c
  | digit => c.isDigit
  | graph => canPrint c && !isGap c
  | lower => isSmall c
  | print => canPrint c
  | punct => canPrint c && !isGap c && (!isWord c || c == '_')
  | space => isGap c || (10 ≤ c.toNat && c.toNat ≤ 13) || c.toNat == 0x2028 || c.toNat == 0x2029
  | upper => isCapital c
  | xdigit => c.isDigit || ('a' ≤ c && c ≤ 'f') || ('A' ≤ c && c ≤ 'F')

end CharClass

end Covenant.Text
