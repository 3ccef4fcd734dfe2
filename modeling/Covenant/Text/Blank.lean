/-!
# Blank characters

The blank characters of Unicode, and what is left of a text when they are stripped. A line is
blank when nothing is left of it; its indentation is its leading run of blank characters.
-/

namespace Covenant.Text

/-- The 29 blank characters: the ASCII ones with the four separators `1c`-`1f`, next line, and
every space, line and paragraph separator of Unicode. -/
def isBlankCode (n : Nat) : Bool :=
  (9 ≤ n && n ≤ 13) || (0x1c ≤ n && n ≤ 0x20) || n == 0x85 || n == 0xa0 || n == 0x1680 ||
    (0x2000 ≤ n && n ≤ 0x200a) || n == 0x2028 || n == 0x2029 || n == 0x202f || n == 0x205f ||
    n == 0x3000

def isBlank (c : Char) : Bool := isBlankCode c.toNat

/-- The text from its first character that is not blank. -/
def stripLeft (s : List Char) : List Char := s.dropWhile isBlank

/-- The text up to its last character that is not blank. -/
def stripRight (s : List Char) : List Char := (s.reverse.dropWhile isBlank).reverse

def strip (s : List Char) : List Char := stripRight (stripLeft s)

def isBlankLine (s : List Char) : Bool := s.all isBlank

/-- The leading run of blank characters. -/
def indentation (s : List Char) : List Char := s.takeWhile isBlank

theorem indentation_append_stripLeft (s : List Char) : indentation s ++ stripLeft s = s :=
  List.takeWhile_append_dropWhile

theorem isBlank_of_mem_indentation {s : List Char} {c : Char} (h : c ∈ indentation s) :
    isBlank c = true :=
  List.all_eq_true.1 (List.all_takeWhile (l := s) (p := isBlank)) c h

end Covenant.Text
