import Covenant.Regex.Basic
import Covenant.Text.Search

/-!
# Reading regular expressions

A text is taken apart into tokens, and these are put together with the groups that are open at
hand. A closing bracket with no group open is a character like any other.

There are two ways to read a mark of repetition that has no character or group before it. It
repeats the empty expression or the condition before it, or it is skipped; of braces only the
opening one is skipped then, and a closing bracket after it closes nothing. The second way is the
strict one, which also allows a reference only to a group that is closed.
-/

namespace Covenant.Regex

open Text

/-! ## Lists of characters -/

/-- A part of the text of a list in brackets. -/
inductive Part
  | char (c : Char)
  | hyphen
  /-- A character between `[.` and `.]`. -/
  | symbol (c : Char)
  /-- A character between `[=` and `=]`. -/
  | like (c : Char)
  | all (k : CharClass)
  deriving DecidableEq, Repr

/-- The only character of a name, which has to be ASCII. -/
def lone? : List Char → Option Char
  | [c] => if c.toNat < 128 then some c else none
  | _ => none

/-- The first part of the text of a list, and what follows it. -/
def part? : List Char → Option (Part × List Char)
  | '[' :: '.' :: r => do
    let (name, rest) ← cut? ".]" r
    return (.symbol (← lone? name), rest)
  | '[' :: '=' :: r => do
    let (name, rest) ← cut? "=]" r
    return (.like (← lone? name), rest)
  | '[' :: ':' :: r => do
    let (name, rest) ← cut? ":]" r
    return (.all (← CharClass.ofName? (String.ofList name)), rest)
  | '-' :: r => some (.hyphen, r)
  | c :: r => some (.char c, r)
  | [] => none

/-- The parts of a list up to its closing bracket, at most `n` of them, and what follows it. -/
def parts? : Nat → List Char → Option (List Part × List Char)
  | 0, _ => none
  | n + 1, s =>
    if s.head? = some ']' then some ([], s.drop 1)
    else do
      let (p, r) ← part? s
      let (ps, rest) ← parts? n r
      return (p :: ps, rest)

/-- A part as an end of a range. -/
def Part.limit? : Part → Option Char
  | .char c | .symbol c => some c
  | .hyphen => some '-'
  | .like _ | .all _ => none

/-- A part as a member. -/
def Part.item : Part → Item
  | .char c => .one c
  | .symbol c | .like c => .range c c
  | .hyphen => .one '-'
  | .all k => .all k

/-- The range between two parts, which have to be ASCII characters in order. -/
def range? (anyCase : Bool) (p q : Part) : Option Item := do
  let a ← p.limit?
  let b ← q.limit?
  let inOrder := if anyCase then upperByTable a ≤ upperByTable b else a ≤ b
  if a.toNat < 128 && b.toNat < 128 && inOrder then some (.range a b) else none

/-- The members of a list. A hyphen is one only at the start or the end of the list. -/
def items? (anyCase : Bool) : Bool → List Part → Option (List Item)
  | _, [] => some []
  | isFirst, p :: .hyphen :: q :: ps =>
    if p = .hyphen && !isFirst then none
    else do
      let i ← range? anyCase p q
      return i :: (← items? anyCase false ps)
  | isFirst, p :: ps =>
    if p = .hyphen && !isFirst && !ps.isEmpty then none
    else (items? anyCase false ps).map fun is => p.item :: is

/-- Whether the parts look like a class that lacks its brackets. -/
def isBareClass (ps : List Part) : Bool :=
  ps.head? = some (.char ':') && ps.getLast? = some (.char ':') &&
    ps.any (fun p => p != .char ':') && ps.all fun p =>
      match p with
      | .char _ => true
      | _ => false

/-- The list whose text starts after the opening bracket, and what follows it. A closing bracket
that comes first is a member. -/
def list? (anyCase : Bool) (s : List Char) : Option (CharSet × List Char) := do
  let negated := s.head? = some '^'
  let s := if negated then s.drop 1 else s
  let startsClosed := s.head? = some ']'
  let (ps, rest) ← parts? s.length (if startsClosed then s.drop 1 else s)
  let ps := if startsClosed then .char ']' :: ps else ps
  if isBareClass ps then none
  else
    let items ← items? anyCase true ps
    return (if negated then .notAmong items else .among items, rest)

/-! ## Tokens -/

inductive Token
  | atom (r : Regex)
  | repetition (least : Nat) (most : Option Nat)
  | bar
  | opening
  | closing
  deriving DecidableEq, Repr

inductive Braces
  /-- How often to repeat, and the text after the braces. -/
  | bounds (least : Nat) (most : Option Nat) (rest : List Char)
  | unbounded
  /-- The opening brace is a character like any other. -/
  | plain

/-- The number that decimal digits write. -/
def decimal (digits : List Char) : Nat :=
  digits.foldl (fun n c => 10 * n + (c.toNat - '0'.toNat)) 0

/-- What stands in braces that open before the text. -/
def braces (s : List Char) : Braces :=
  let first := s.takeWhile Char.isDigit
  match s.dropWhile Char.isDigit with
  | '\x7d' :: rest =>
    if first.isEmpty then .unbounded else .bounds (decimal first) (some (decimal first)) rest
  | ',' :: r =>
    let second := r.takeWhile Char.isDigit
    match r.dropWhile Char.isDigit with
    | '\x7d' :: rest =>
      if second.isEmpty then .bounds (decimal first) none rest
      else if decimal first ≤ decimal second then
        .bounds (decimal first) (some (decimal second)) rest
      else .unbounded
    | _ => .plain
  | _ => .plain

/-- The most that an expression can be repeated by number. -/
def maxRepetitions : Nat := 32767

/-- How a text is read. -/
structure Mode where
  anyCase : Bool
  isStrict : Bool

/-- What a character after a backslash stands for. A small letter that has no meaning there stands
for nothing in the strict way when case does not count: lines are compared in capitals then, and
it stays small. -/
def escaped (m : Mode) (c : Char) : Regex :=
  match c with
  | 'w' => .one (.among [.all .alnum, .one '_'])
  | 'W' => .one (.notAmong [.all .alnum, .one '_'])
  | 's' => .one (.among [.all .space])
  | 'S' => .one (.notAmong [.all .space])
  | '<' => .place .wordStart
  | '>' => .place .wordEnd
  | 'b' => .place .wordEdge
  | 'B' => .place .noWordEdge
  | '\x60' => .place .lineStart
  | '\x27' => .place .lineEnd
  | c =>
    if '1' ≤ c && c ≤ '9' then .again (c.toNat - '0'.toNat)
    else if m.isStrict && m.anyCase && c.isLower then .one (.among [])
    else .one (.exactly c)

/-- The first token of a text, and what follows it; `isStart` says that there is nothing yet to
repeat. -/
def token? (m : Mode) (isStart : Bool) : List Char → Option (Token × List Char)
  | [] => none
  | c :: r =>
    match c with
    | '\\' =>
      match r with
      | e :: rest => some (.atom (escaped m e), rest)
      | [] => none
    | '[' => (list? m.anyCase r).map fun p => (.atom (.one p.1), p.2)
    | '\x7b' =>
      match braces r with
      | .bounds least most rest =>
        if most.getD least ≤ maxRepetitions then some (.repetition least most, rest) else none
      | .unbounded => if isStart then some (.atom (.one (.exactly c)), r) else none
      | .plain => some (.atom (.one (.exactly c)), r)
    | '.' => some (.atom (.one .any), r)
    | '^' => some (.atom (.place .lineStart), r)
    | '$' => some (.atom (.place .lineEnd), r)
    | '*' => some (.repetition 0 none, r)
    | '+' => some (.repetition 1 none, r)
    | '?' => some (.repetition 0 (some 1), r)
    | '|' | '\n' => some (.bar, r)
    | '(' => some (.opening, r)
    | ')' => some (.closing, r)
    | c => some (.atom (.one (.exactly c)), r)

/-- Whether there is nothing to repeat after the token. -/
def Token.isStartAfter (isStart : Bool) : Token → Bool
  | .atom (.place _) | .bar | .opening => true
  | .repetition _ _ => isStart
  | .atom _ | .closing => false

/-- The characters that start a mark of repetition. -/
def repetitionMarks : List Char := "*+?\x7b".toList

/-- The tokens of a text, at most `n` of them; `skipped` says that a mark was skipped before it. -/
def tokens? (m : Mode) : Nat → Bool → Bool → List Char → Option (List Token)
  | _, _, _, [] => some []
  | 0, _, _, _ => none
  | n + 1, isStart, skipped, c :: r =>
    if m.isStrict && isStart && repetitionMarks.elem c then tokens? m n true true r
    else if skipped && c = ')' then
      (tokens? m n false false r).map fun ts => .atom (.one (.exactly c)) :: ts
    else do
      let (t, rest) ← token? m isStart (c :: r)
      return t :: (← tokens? m n (t.isStartAfter isStart) false rest)

/-! ## Groups -/

structure Frame where
  number : Nat
  /-- The alternatives that are complete. -/
  before : Option Regex
  /-- What the last alternative has so far, last first. -/
  parts : List Regex
  /-- The groups that were closed when this one was opened. -/
  outside : List Nat
  /-- The groups that were closed in the alternatives that are complete. -/
  inside : List Nat

namespace Frame

/-- All alternatives. -/
def regex (f : Frame) : Regex :=
  let last := f.parts.foldl (fun r p => .seq p r) .empty
  match f.before with
  | some r => .alt r last
  | none => last

def add (f : Frame) (r : Regex) : Frame := { f with parts := r :: f.parts }

def repeatLast (f : Frame) (least : Nat) (most : Option Nat) : Frame :=
  match f.parts with
  | [] => f.add .empty
  | r :: rs => { f with parts := .times r least most :: rs }

end Frame

/-- The expression of the tokens, where `f` is the innermost open group and `above` are those that
it is in, `count` groups have been opened and `closed` can be referred to. -/
def ofTokens? (isStrict : Bool) (f : Frame) (above : List Frame) (count : Nat) (closed : List Nat) :
    List Token → Option Regex
  | [] => if above.isEmpty then some f.regex else none
  | .atom (.again n) :: ts =>
    if isStrict && !closed.elem n then none
    else ofTokens? isStrict (f.add (.again n)) above count closed ts
  | .atom r :: ts => ofTokens? isStrict (f.add r) above count closed ts
  | .repetition least most :: ts =>
    ofTokens? isStrict (f.repeatLast least most) above count closed ts
  | .bar :: ts =>
    ofTokens? isStrict
      { f with before := some f.regex, parts := [], inside := closed ++ f.inside } above count
      f.outside ts
  | .opening :: ts =>
    ofTokens? isStrict ⟨count + 1, none, [], closed, []⟩ (f :: above) (count + 1) closed ts
  | .closing :: ts =>
    match above with
    | [] => ofTokens? isStrict (f.add (.one (.exactly ')'))) [] count closed ts
    | g :: gs =>
      ofTokens? isStrict (g.add (.group f.number f.regex)) gs count
        (f.number :: (closed ++ f.inside)) ts

/-- The expression that a text writes. -/
def read? (m : Mode) (s : List Char) : Option Regex := do
  let ts ← tokens? m s.length true false s
  ofTokens? m.isStrict ⟨0, none, [], [], []⟩ [] 0 [] ts

end Covenant.Regex
