/-!
# Fields of a text

A separator divides a text into fields. `cut?` divides at the first occurrence only; the first,
second and last field are what callers need of the full division, so it is never built.
-/

namespace Covenant.Text

def startsWith (p : String) (s : List Char) : Bool := p.toList.isPrefixOf s

def endsWith (p : String) (s : List Char) : Bool := p.toList.isSuffixOf s

/-- What stands before and after the first occurrence of `sep`. -/
def cutAt? (sep : List Char) : List Char → Option (List Char × List Char)
  | [] => if sep.isPrefixOf [] then some ([], []) else none
  | c :: r =>
    if sep.isPrefixOf (c :: r) then some ([], (c :: r).drop sep.length)
    else (cutAt? sep r).map fun p => (c :: p.1, p.2)

def cut? (sep : String) (s : List Char) : Option (List Char × List Char) := cutAt? sep.toList s

def contains (sep : String) (s : List Char) : Bool := (cut? sep s).isSome

/-- The text up to the first `sep`, or all of it. -/
def firstField (sep : String) (s : List Char) : List Char :=
  match cut? sep s with
  | some (before, _) => before
  | none => s

/-- The text between the first `sep` and the next one, or the end. -/
def secondField? (sep : String) (s : List Char) : Option (List Char) :=
  (cut? sep s).map fun p => firstField sep p.2

/-- The text after the last `d`, or all of it. -/
def lastField (d : Char) (s : List Char) : List Char := (s.reverse.takeWhile (· != d)).reverse

def dropStart (p : String) (s : List Char) : List Char :=
  if startsWith p s then s.drop p.toList.length else s

def dropEnd (p : String) (s : List Char) : List Char :=
  if endsWith p s then s.take (s.length - p.toList.length) else s

theorem cutAt?_eq_some {sep s a b : List Char} (h : cutAt? sep s = some (a, b)) :
    s = a ++ sep ++ b := by
  induction s generalizing a with
  | nil =>
    rw [cutAt?] at h
    split at h
    · next hp => simp_all
    · simp at h
  | cons c r ih =>
    rw [cutAt?] at h
    split at h
    · next hp =>
      obtain ⟨t, ht⟩ := List.isPrefixOf_iff_prefix.1 hp
      simp only [Option.some.injEq, Prod.mk.injEq] at h
      obtain ⟨rfl, rfl⟩ := h
      simp [← ht]
    · obtain ⟨p, hp, he⟩ := Option.map_eq_some_iff.1 h
      simp only [Prod.mk.injEq] at he
      obtain ⟨rfl, rfl⟩ := he
      simp [ih (a := p.1) hp]

end Covenant.Text
