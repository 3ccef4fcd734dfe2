/-!
# Places by number

A signed number names a place in a list: from `0` on it counts from the start, below that from the
end. Numbers are of 64 bits, whatever the length of the list.
-/

namespace Covenant

/-- Why a number names no place of a list. -/
inductive PlaceFault
  | outside
  /-- The number does not fit in 64 bits. -/
  | tooLarge
  deriving DecidableEq, Repr

def PlaceFault.message : PlaceFault → String
  | .outside => "list index out of range"
  | .tooLarge => "cannot fit 'int' into an index-sized integer"

/-- The place that the number names in a list of length `n`. -/
def place (n : Nat) (k : Int) : Except PlaceFault Nat :=
  if k < -0x8000000000000000 ∨ 0x8000000000000000 ≤ k then .error .tooLarge
  else if 0 ≤ k then if k < n then .ok k.toNat else .error .outside
  else if 0 ≤ n + k then .ok (n + k).toNat
  else .error .outside

theorem place_lt {n i : Nat} {k : Int} (h : place n k = .ok i) : i < n := by
  unfold place at h
  split at h
  · simp at h
  · split at h
    · split at h
      · simp only [Except.ok.injEq] at h
        omega
      · simp at h
    · split at h
      · simp only [Except.ok.injEq] at h
        omega
      · simp at h

end Covenant
