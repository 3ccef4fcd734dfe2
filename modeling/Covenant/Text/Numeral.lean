import Covenant.Text.Blank
import Covenant.Text.Digit

/-!
# Whole numbers in free text

What is read as a whole number: perhaps blanks around it, perhaps a sign, then digits of any
script of a table with at most one underscore between two of them. Longer numerals than `digitLimit`
are refused. `leadingNumeral?` reads the longest beginning of a text that is a whole number.
-/

namespace Covenant.Text

/-- The most digits that a numeral may have, leading zeros included. -/
def digitLimit : Nat := 4300

/-- Blanks around a numeral; the four separators `1c`-`1f` are not among them. -/
def isNumeralBlank (c : Char) : Bool := isBlank c && !(0x1c ≤ c.toNat && c.toNat ≤ 0x1f)

/-- The number that the digits write in base ten. -/
def ofDigits (ds : List Nat) : Nat := ds.foldl (fun n d => 10 * n + d) 0

section

variable (t : DigitTable)

/-- The digits at the start of the text, an underscore allowed before each, and the rest. -/
def moreDigits : List Char → List Nat × List Char
  | [] => ([], [])
  | ['_'] => ([], ['_'])
  | '_' :: c :: r =>
    match t.digit? c with
    | some d => let p := moreDigits r; (d :: p.1, p.2)
    | none => ([], '_' :: c :: r)
  | c :: r =>
    match t.digit? c with
    | some d => let p := moreDigits r; (d :: p.1, p.2)
    | none => ([], c :: r)

/-- An unsigned numeral with blanks after it. -/
def readUnsigned? (s : List Char) : Option Nat :=
  match s with
  | [] => none
  | c :: r =>
    match t.digit? c with
    | none => none
    | some d =>
      let p := moreDigits t r
      if p.2.all isNumeralBlank && (d :: p.1).length ≤ digitLimit then some (ofDigits (d :: p.1))
      else none

/-- The whole number that the text writes. -/
def readNumeral? (s : List Char) : Option Int :=
  match s.dropWhile isNumeralBlank with
  | '-' :: r => (readUnsigned? t r).map fun n => -(n : Int)
  | '+' :: r => (readUnsigned? t r).map fun n => (n : Int)
  | r => (readUnsigned? t r).map fun n => (n : Int)

/-- The number written by the longest beginning of `s` of length at most `n` and not zero that
writes one. -/
def readLongest? (s : List Char) : Nat → Option Int
  | 0 => none
  | n + 1 => readNumeral? t (s.take (n + 1)) <|> readLongest? s n

/-- The number written by the longest non-empty beginning of the text that writes one. -/
def leadingNumeral? (s : List Char) : Option Int := readLongest? t s s.length

end

end Covenant.Text
