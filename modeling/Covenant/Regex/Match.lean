import Covenant.Regex.Basic
import Covenant.Text.Glyph

/-!
# Matching

`ends` takes the spots at which a match may start to those at which it may end. As an expression
has only so many spots on a line, a repetition is followed until it reaches no new ones.

A line may have newlines in it. Where these count, the line also ends before a newline that the
match goes on to take, and starts after one that it has taken.
-/

namespace Covenant.Regex

abbrev Line := Array Text.Glyph

/-- A place in a line, and what is known of the way to it. -/
structure Spot where
  pos : Nat
  /-- Whether the match has taken a character. -/
  hasMoved : Bool := false
  /-- Whether the match has to take the newline that comes next. -/
  owesNewline : Bool := false
  /-- The number of a group, and where its match starts and ends. -/
  groups : List (Nat × Nat × Nat) := []
  deriving DecidableEq, Repr

/-- The spot after the match has taken what is before `i`. -/
def Spot.moveTo (p : Spot) (i : Nat) : Spot :=
  if i = p.pos then p else { p with pos := i, hasMoved := true, owesNewline := false }

/-- Where and how to match. -/
structure Setting where
  line : Line
  anyCase : Bool
  /-- Whether newlines in the line count. -/
  innerLines : Bool
  /-- Whether it counts what the groups match. -/
  keepsGroups : Bool

namespace Setting

/-- Whether a character of a word is at the place. A byte that is no part of a character counts
as the character with its number. -/
def isWordAt (t : Setting) (i : Nat) : Bool :=
  match t.line[i]? with
  | some (.char c) => Text.isWord c
  | some (.stray b) => Text.isWord (Char.ofNat b.toNat)
  | none => false

/-- Whether a character of a word is before the place. -/
def isWordBefore (t : Setting) (i : Nat) : Bool := i != 0 && t.isWordAt (i - 1)

/-- Whether a newline that counts is at the place. -/
def isNewlineAt (t : Setting) (i : Nat) : Bool :=
  t.innerLines && t.line[i]? == some (.char '\n')

/-- The spot, if the condition holds there. -/
def check (t : Setting) (c : Condition) (p : Spot) : Option Spot :=
  let before := t.isWordBefore p.pos
  let after := t.isWordAt p.pos
  match c with
  | .lineStart => if p.pos = 0 || (p.hasMoved && t.isNewlineAt (p.pos - 1)) then some p else none
  | .lineEnd =>
    if p.pos = t.line.size then some p
    else if t.isNewlineAt p.pos then some { p with owesNewline := true }
    else none
  | .wordStart => if !before && after then some p else none
  | .wordEnd => if before && !after then some p else none
  | .wordEdge => if before != after then some p else none
  | .noWordEdge => if before == after then some p else none

/-- The place after the character at `i`, if it is of the set. -/
def step? (t : Setting) (s : CharSet) (i : Nat) : Option Nat :=
  match t.line[i]? with
  | some (.char c) => if s.holds t.anyCase c then some (i + 1) else none
  | some (.stray _) => if s = .whatever then some (i + 1) else none
  | none => none

/-- Whether the characters from `i` on are, but for case where it does not count, the `n` ones
from `j` on. -/
def repeats (t : Setting) (i j : Nat) : Nat → Bool
  | 0 => true
  | n + 1 =>
    match t.line[i]?, t.line[j]? with
    | some (.char c), some (.char d) =>
      CharSet.holds t.anyCase (.exactly d) c && t.repeats (i + 1) (j + 1) n
    | some a, some b => a == b && t.repeats (i + 1) (j + 1) n
    | _, _ => false

/-- The spot after what the group matched, if that comes once more. -/
def again? (t : Setting) (n : Nat) (s : Spot) : Option Spot :=
  match s.groups.lookup n with
  | some (i, j) =>
    if t.repeats s.pos i (j - i) then some (s.moveTo (s.pos + (j - i))) else none
  | none => none

/-- The places from `i` on that `n` or fewer characters of the set lead to. -/
def run (t : Setting) (s : CharSet) : Nat → Nat → List Nat
  | 0, i => [i]
  | n + 1, i =>
    match t.step? s i with
    | some j => i :: t.run s n j
    | none => [i]

/-- The spots that any number of characters of the set lead to; `reached` is how far those before
have led. -/
def runs (t : Setting) (s : CharSet) (reached : Nat) : List Spot → List Spot
  | [] => []
  | p :: ps =>
    if !t.keepsGroups && p.pos < reached then t.runs s reached ps
    else
      let places := t.run s t.line.size p.pos
      places.map p.moveTo ++ t.runs s (p.pos + places.length) ps

end Setting

/-- The spots in order and without repetitions. -/
def distinct (ss : List Spot) : List Spot :=
  ((ss.mergeSort fun a b => a.pos ≤ b.pos).splitBy fun a b => a.pos == b.pos).flatMap
    List.eraseDups

/-- The spots after `n` repetitions of `f`. -/
def exactly (f : List Spot → List Spot) : Nat → List Spot → List Spot
  | 0, ss => ss
  | n + 1, ss =>
    let next := f ss
    if next == ss then ss else exactly f n next

/-- The spots that were `seen`, and those that up to `n` more repetitions of `f` lead to from the
`newest`. -/
def upTo (f : List Spot → List Spot) : Nat → List Spot → List Spot → List Spot
  | 0, seen, _ => seen
  | n + 1, seen, newest =>
    let more := (distinct (f newest)).filter fun s => !seen.elem s
    if more.isEmpty then seen else upTo f n (distinct (seen ++ more)) more

/-- The spots at which a match that starts at one of the spots ends. -/
def ends (t : Setting) : Regex → List Spot → List Spot
  | empty, ss => ss
  | one s, ss => ss.filterMap fun p => (t.step? s p.pos).map p.moveTo
  | place c, ss => ss.filterMap (t.check c)
  | seq a b, ss => ends t b (ends t a ss)
  | alt a b, ss => distinct (ends t a ss ++ ends t b ss)
  | times (one s) 0 none, ss => distinct (t.runs s 0 (distinct ss))
  | times r least most, ss =>
    let start := distinct (exactly (fun ss => distinct (ends t r ss)) least ss)
    let bound := 2 * t.line.size + 2
    upTo (ends t r) (match most with
      | some n => min (n - least) bound
      | none => bound) start start
  | group n r, ss =>
    if t.keepsGroups then
      distinct (ss.flatMap fun p => (ends t r [p]).map fun e =>
        { e with groups := (n, p.pos, e.pos) :: e.groups.filter fun g => g.1 != n })
    else ends t r ss
  | again n, ss => ss.filterMap (t.again? n)

structure Manner where
  anyCase : Bool
  innerLines : Bool

/-- Where a match that starts at one of the places can end. -/
def endsFrom (r : Regex) (m : Manner) (line : Line) (starts : List Nat) : List Nat :=
  let t : Setting := ⟨line, m.anyCase, m.innerLines, r.refersBack⟩
  ((ends t r (starts.map ({ pos := · }))).filter fun p => !p.owesNewline).map Spot.pos

/-- Whether the expression matches a part of the line. -/
def occursIn (r : Regex) (m : Manner) (line : Line) : Bool :=
  !(r.endsFrom m line (List.range (line.size + 1))).isEmpty

/-- Whether the expression matches the line from its start to its end. -/
def isAllOf (r : Regex) (m : Manner) (line : Line) : Bool :=
  (r.endsFrom m line [0]).elem line.size

/-- Whether a character of a word is at the place; other bytes are none. -/
def isWordIn (l : Line) (i : Nat) : Bool := (l[i]?.bind Text.Glyph.char?).any Text.isWord

/-- Whether the expression matches a part of the line with no character of a word before or after
it. That nothing at all is matched counts only where nothing more can be matched. -/
def isWordOf (r : Regex) (m : Manner) (line : Line) : Bool :=
  (List.range (line.size + 1)).any fun i =>
    !(i != 0 && isWordIn line (i - 1)) &&
      let js := r.endsFrom m line [i]
      js.any fun j => !isWordIn line j && (i != j || js.all (· == i))

end Covenant.Regex
