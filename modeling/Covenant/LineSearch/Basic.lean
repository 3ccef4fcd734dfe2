import Covenant.LineSearch.Options
import Covenant.Regex.Match
import Covenant.Regex.Reader
import Covenant.World.Disk

/-!
# A search with options

The search for an import of `kani` when it is given an option and no file. The option can make it
look at every file below the working directory; otherwise it looks at the standard input. If it
brings a pattern, the search takes the usual one for the path of what to look at. An option can also
make the search tell about itself, which always succeeds.
-/

namespace Covenant.LineSearch

open Text

/-- The pattern of a line that imports `kani`. -/
def usualPattern : String := "^use .*kani"

/-- The lines between the ends; there is none after the last end. -/
def endedLines {α : Type} (ends : α → Bool) (s : List α) : List (List α) :=
  let ls := pieces ends s
  if (ls.getLast?.getD []).isEmpty then ls.dropLast else ls

/-- The lines of a content when the characters with these numbers end a line. -/
def seenLines (ends : List Nat) : Content → List Regex.Line
  | .text s =>
    (endedLines (fun c => ends.elem c.toNat) s.toList).map fun l => (l.map Glyph.char).toArray
  | .binary bs =>
    (endedLines (fun b => ends.elem b.toNat) bs).map fun l => (glyphs l).toArray

def hasZero : Content → Bool
  | .text s => s.toList.elem '\x00'
  | .binary bs => bs.elem 0

/-- The lines of a content that are texts. -/
def textLines : Content → List (List Char)
  | .text s => endedLines (· == '\n') s.toList
  | .binary bs => (endedLines (· == 10) bs).filterMap fun l => (glyphs l).mapM Glyph.char?

/-- The texts of the expressions that are searched for, if they can be read. -/
def Pattern.texts? (p : Pattern) (d : Disk) (input : Content) : Option (List (List Char)) :=
  match p with
  | .usual => some [usualPattern.toList]
  | .given text => some (cells '\n' text.toList)
  | .listedIn path =>
    if path = "-" then some (textLines input)
    else
      match d.load path with
      | .ok c => some (textLines c)
      | .error _ => none

namespace Options

/-- The lines of a content that are looked at. -/
def linesOf (o : Options) (c : Content) : List Regex.Line :=
  if o.zeroEnded then seenLines [0] c
  else
    match o.zeroByte with
    | .endsLine => seenLines [10, 0] c
    | .isOrdinary => seenLines [10] c
    | .hidesFile => if hasZero c then [] else seenLines [10] c

/-- The text of one expression that stands for all, with what has to be around a match. -/
def framed (o : Options) (ts : List (List Char)) : List Char :=
  let all := ['\n'].intercalate ts
  if o.wholeLine then "^(".toList ++ all ++ ")$".toList
  else if o.wholeWord then
    "(^|[^[:alnum:]_])(".toList ++ all ++ ")([^[:alnum:]_]|$)".toList
  else all

/-- What is searched for. A line that the outline does not match is out at once. If the outline is
not simple, one of the expressions has to match as well. -/
structure Task where
  /-- There is none if the expressions are nothing but characters. -/
  outline : Option Regex
  expressions : List Regex

/-- The expressions, with those that do not refer back made one. -/
def joined (rs : List Regex) : List Regex :=
  let (back, free) := rs.partition Regex.refersBack
  match free with
  | [] => back
  | r :: rest => rest.foldl .alt r :: back

/-- The characters that make a text more than the characters it has. -/
def marks : List Char := "$*.[^(+?\x7b|\\".toList

/-- What to search for by the texts of expressions, if they can be read. -/
def task? (o : Options) (ts : List (List Char)) : Option Task := do
  let outline ← Regex.read? ⟨o.anyCase, false⟩ (o.framed ts)
  let expressions ← ts.mapM (Regex.read? ⟨o.anyCase, true⟩)
  return ⟨if ts.any (·.any marks.elem) then some outline else none, joined expressions⟩

/-- Whether an expression matches the line, as much of it as it has to. -/
def isMatch (o : Options) (l : Regex.Line) (r : Regex) : Bool :=
  let m : Regex.Manner := ⟨o.anyCase, o.zeroEnded⟩
  if o.wholeLine then r.isAllOf m l
  else if o.wholeWord then r.isWordOf m l
  else r.occursIn m l

/-- Whether the line is one that is searched for. -/
def hits (o : Options) (t : Task) (l : Regex.Line) : Bool :=
  match t.outline with
  | none => t.expressions.any (o.isMatch l)
  | some r =>
    r.loosened.occursIn ⟨o.anyCase, false⟩ l && (r.isSimple || t.expressions.any (o.isMatch l))

/-- Whether a content has a line that is selected. -/
def finds (o : Options) (t : Task) (c : Content) : Bool :=
  !o.atOnce && (o.linesOf c).any fun l => o.hits t l != o.inverted

/-- The contents that are looked at. -/
def contents (o : Options) (d : Disk) (input : Content) : List Content :=
  match o.pattern, d.load usualPattern with
  | .usual, _ => if o.everywhere then d.contentsBelow ⟨.above 0, []⟩ else [input]
  | _, .ok c => [c]
  | _, .error (.isDirectory _) =>
    if o.everywhere then d.contentsBelow (Location.ofPath usualPattern) else []
  | _, .error _ => []

/-- Whether a search on the disk, with this standard input, succeeds. -/
def succeeds (o : Options) (d : Disk) (input : Content) : Bool :=
  match o.pattern.texts? d input with
  | some ts =>
    o.introduction ||
      match o.task? ts with
      | some t => (o.contents d input).any (o.finds t)
      | none => false
  | none => false

end Options

/-- Whether the search succeeds that is given the path, which starts with a dash. -/
def succeedsWith (d : Disk) (input : Content) (path : String) : Bool :=
  match Options.ofPath? path with
  | some o => o.succeeds d input
  | none => false

end Covenant.LineSearch
