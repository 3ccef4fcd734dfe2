import Covenant.Text.CaseTable

/-!
# Lower and upper case

In lower case every character with a lower-case form takes it. Two are special: capital dotted I
becomes an `i` with a dot above it, and a capital sigma that ends a word becomes a final sigma. A
sigma ends a word when the nearest character before it that is no mark has case, and the nearest
one after it has none.
-/

namespace Covenant.Text

/-- Whether one of the ranges holds the character. -/
def inRanges (ranges : List (Nat × Nat)) (c : Char) : Bool :=
  ranges.any fun r => r.1 ≤ c.toNat && c.toNat ≤ r.2

/-- The first character that is no mark has case. -/
def meetsCase (s : List Char) : Bool :=
  match s.dropWhile (inRanges caselessMarkRanges) with
  | [] => false
  | c :: _ => inRanges casedRanges c

/-- The lower-case form of one character by the table. -/
def lowerByTable (c : Char) : Char :=
  let n := c.toNat
  match lowerRuns.find? fun r => r.1 ≤ n && n ≤ r.2.1 && (n - r.1) % r.2.2.1 == 0 with
  | some (first, _, _, image) => Char.ofNat (image + (n - first))
  | none => c

/-- Characters whose upper-case form has another lower-case form, and `ß`, which has none. -/
def upperExceptions : List (Nat × Nat) :=
  [(0xb5, 0x39c), (0xdf, 0xdf), (0x131, 0x49), (0x17f, 0x53), (0x1c5, 0x1c4), (0x1c8, 0x1c7),
    (0x1cb, 0x1ca), (0x1f2, 0x1f1), (0x345, 0x399), (0x3c2, 0x3a3), (0x3d0, 0x392), (0x3d1, 0x398),
    (0x3d5, 0x3a6), (0x3d6, 0x3a0), (0x3f0, 0x39a), (0x3f1, 0x3a1), (0x3f5, 0x395), (0x1c80, 0x412),
    (0x1c81, 0x414), (0x1c82, 0x41e), (0x1c83, 0x421), (0x1c84, 0x422), (0x1c85, 0x422),
    (0x1c86, 0x42a), (0x1c87, 0x462), (0x1c88, 0xa64a), (0x1e9b, 0x1e60), (0x1fbe, 0x399)]

/-- The upper-case form of one character. -/
def upperByTable (c : Char) : Char :=
  let n := c.toNat
  match upperExceptions.lookup n with
  | some m => Char.ofNat m
  | none =>
    match lowerRuns.find? fun r =>
        r.2.2.2 ≤ n && n ≤ r.2.2.2 + (r.2.1 - r.1) && (n - r.2.2.2) % r.2.2.1 == 0 with
    | some (first, _, _, image) => Char.ofNat (first + (n - image))
    | none => c

/-- The lower-case form of `c`, where `before` is what stands before it, nearest first, and
`after` what follows. -/
def lowerAt (before : List Char) (c : Char) (after : List Char) : List Char :=
  if c.toNat < 128 then [c.toLower]
  else if c = 'İ' then ['i', '̇']
  else if c = 'Σ' then if meetsCase before && !meetsCase after then ['ς'] else ['σ']
  else [lowerByTable c]

/-- The lower-case form of what follows `before`. -/
def lowerFrom (before : List Char) : List Char → List Char
  | [] => []
  | c :: r => lowerAt before c r ++ lowerFrom (c :: before) r

def lower (s : List Char) : List Char := lowerFrom [] s

end Covenant.Text
