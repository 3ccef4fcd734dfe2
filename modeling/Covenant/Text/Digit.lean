import Covenant.Text.Blank

/-!
# Decimal digits

Every script of Unicode with decimal digits has them in a run of ten, zero first. Which scripts
there are depends on the edition: a later one has the runs of the earlier ones and some more.
-/

namespace Covenant.Text

/-- The decimal digits of an edition of Unicode. -/
structure DigitTable where
  /-- The zeros in order, each followed by the nine other digits of its script. -/
  zeros : List Nat
  apart : zeros.Pairwise fun a b => a + 10 ≤ b
  /-- The first run is that of ASCII, which has no other one. -/
  ascii : zeros.head? = some 0x30 ∧ ∀ z ∈ zeros.tail, 0x80 ≤ z
  solid : ∀ z ∈ zeros, ∀ k < 10, isBlankCode (z + k) = false

namespace DigitTable

def digit? (t : DigitTable) (c : Char) : Option Nat :=
  (t.zeros.find? fun z => z ≤ c.toNat && c.toNat ≤ z + 9).map fun z => c.toNat - z

def unicode14 : DigitTable where
  zeros :=
    [0x30, 0x660, 0x6f0, 0x7c0, 0x966, 0x9e6, 0xa66, 0xae6, 0xb66, 0xbe6, 0xc66, 0xce6, 0xd66,
      0xde6, 0xe50, 0xed0, 0xf20, 0x1040, 0x1090, 0x17e0, 0x1810, 0x1946, 0x19d0, 0x1a80, 0x1a90,
      0x1b50, 0x1bb0, 0x1c40, 0x1c50, 0xa620, 0xa8d0, 0xa900, 0xa9d0, 0xa9f0, 0xaa50, 0xabf0,
      0xff10, 0x104a0, 0x10d30, 0x11066, 0x110f0, 0x11136, 0x111d0, 0x112f0, 0x11450, 0x114d0,
      0x11650, 0x116c0, 0x11730, 0x118e0, 0x11950, 0x11c50, 0x11d50, 0x11da0, 0x16a60, 0x16ac0,
      0x16b50, 0x1d7ce, 0x1d7d8, 0x1d7e2, 0x1d7ec, 0x1d7f6, 0x1e140, 0x1e2f0, 0x1e950, 0x1fbf0]
  apart := by decide +kernel
  ascii := by decide +kernel
  solid := by decide +kernel

/-- The fifteenth edition has two more scripts. -/
def unicode15 : DigitTable where
  zeros :=
    unicode14.zeros.takeWhile (· < 0x11f50) ++ 0x11f50 ::
      (unicode14.zeros.filter fun z => 0x11f50 < z && z < 0x1e4f0) ++ 0x1e4f0 ::
      unicode14.zeros.dropWhile (· < 0x1e4f0)
  apart := by decide +kernel
  ascii := by decide +kernel
  solid := by decide +kernel

end DigitTable

end Covenant.Text
