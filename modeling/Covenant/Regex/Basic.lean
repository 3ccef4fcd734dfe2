import Covenant.Text.Class

/-!
# Regular expressions

Extended regular expressions over the characters of a line. A line may have bytes that are no part
of a character; only the set of whatever there is holds those.
-/

namespace Covenant

/-- A member of a list of characters. -/
inductive Regex.Item
  | one (c : Char)
  | range (first last : Char)
  | all (k : Text.CharClass)
  deriving DecidableEq, Repr

/-- What one character can be. -/
inductive Regex.CharSet
  /-- Any character, and also a byte that is no part of one. -/
  | whatever
  | any
  | exactly (c : Char)
  | among (items : List Item)
  | notAmong (items : List Item)
  deriving DecidableEq, Repr

/-- A condition on a place in a line. -/
inductive Regex.Condition
  | lineStart
  | lineEnd
  | wordStart
  | wordEnd
  | wordEdge
  | noWordEdge
  deriving DecidableEq, Repr

inductive Regex
  | empty
  | one (s : Regex.CharSet)
  | place (p : Regex.Condition)
  | seq (a b : Regex)
  | alt (a b : Regex)
  /-- At least `least` times and, if there is a bound, at most so often. -/
  | times (r : Regex) (least : Nat) (most : Option Nat)
  | group (n : Nat) (r : Regex)
  /-- What the group matched, once more. -/
  | again (n : Nat)
  deriving DecidableEq, Repr

namespace Regex

/-- Whether what a group matched is asked for. -/
def refersBack : Regex → Bool
  | empty | one _ | place _ => false
  | seq a b | alt a b => a.refersBack || b.refersBack
  | times r _ _ | group _ r => r.refersBack
  | again _ => true

/-- Whether the set is that of all characters, or lists characters and decimal digits. -/
def CharSet.isSimple : CharSet → Bool
  | .whatever | .any | .exactly _ => true
  | .among items => items.all fun i =>
    match i with
    | .one _ | .all .digit => true
    | _ => false
  | .notAmong _ => false

/-- Whether the expression has simple sets only, and asks for nothing else than the start and the
end of the line. -/
def isSimple : Regex → Bool
  | empty | place .lineStart | place .lineEnd => true
  | place _ | again _ => false
  | one s => s.isSimple
  | seq a b | alt a b => a.isSimple && b.isSimple
  | times _ _ (some 0) => true
  | times r _ _ | group _ r => r.isSimple

/-- An expression that matches at least as much and is simple: whatever there is may stand where
the expression has something that is not simple. -/
def loosened : Regex → Regex
  | empty => empty
  | one s => if s.isSimple then one s else times (one .whatever) 0 none
  | place .lineStart => place .lineStart
  | place .lineEnd => place .lineEnd
  | place _ => empty
  | seq a b => seq a.loosened b.loosened
  | alt a b => alt a.loosened b.loosened
  | times r least most => times r.loosened least most
  | group n r => group n r.loosened
  | again _ => times (one .whatever) 0 none

/-- The classes when case does not count: letters have no case then. -/
def Item.holdsAnyCase (i : Item) (c : Char) : Bool :=
  let c := Text.upperByTable c
  match i with
  | .one d => c == Text.upperByTable d
  | .range a b => Text.upperByTable a ≤ c && c ≤ Text.upperByTable b
  | .all .lower | .all .upper => Text.CharClass.alpha.holds c
  | .all k => k.holds c

def Item.holds (i : Item) (c : Char) : Bool :=
  match i with
  | .one d => c == d
  | .range a b => a ≤ c && c ≤ b
  | .all k => k.holds c

def CharSet.holds (anyCase : Bool) (s : CharSet) (c : Char) : Bool :=
  let member := fun (i : Item) => if anyCase then i.holdsAnyCase c else i.holds c
  match s with
  | .whatever | .any => true
  | .exactly d => member (.one d)
  | .among items => items.any member
  | .notAmong items => !items.any member

end Regex

end Covenant
