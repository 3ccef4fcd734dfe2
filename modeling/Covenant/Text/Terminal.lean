import Covenant.Text.Digit

/-!
# Text for a plain output

What is written for a terminal may hold sequences that are not shown: styles (`ESC [ ... letter`)
and commands (`ESC ] ... BEL`). Both can stand between the marks `\x01` and `\x02`. `plain?` takes
them out for an output that is no terminal, first the commands, then the styles. It has no result
when a command sets the title, which only a terminal has.
-/

namespace Covenant.Text

/-- The text without the mark that may close a sequence. -/
def dropCloseMark (s : List Char) : List Char :=
  if s.head? = some '\x02' then s.tail else s

theorem length_dropCloseMark_le (s : List Char) : (dropCloseMark s).length ≤ s.length := by
  unfold dropCloseMark
  split <;> simp

/-! ## Styles -/

section

variable (digits : DigitTable)

/-- What follows the parameters, the final letter and the closing mark of a style. -/
def afterParameters? : List Char → Option (List Char)
  | [] => none
  | c :: r =>
    if c = ';' ∨ (digits.digit? c).isSome then afterParameters? r
    else if c.isAlpha then some (dropCloseMark r)
    else none

/-- What follows the style at the start of the text, if there is one. -/
def afterStyle? : List Char → Option (List Char)
  | '\x01' :: '\x1b' :: '[' :: r => afterParameters? digits r
  | '\x1b' :: '[' :: r => afterParameters? digits r
  | _ => none

variable {digits}

theorem length_afterParameters?_lt {s t : List Char} (h : afterParameters? digits s = some t) :
    t.length < s.length := by
  induction s with
  | nil => simp [afterParameters?] at h
  | cons c r ih =>
    rw [afterParameters?] at h
    rw [List.length_cons]
    split at h
    · have := ih h
      omega
    · split at h
      · have := length_dropCloseMark_le r
        simp only [Option.some.injEq] at h
        subst h
        omega
      · simp at h

theorem length_afterStyle?_lt {s t : List Char} (h : afterStyle? digits s = some t) :
    t.length < s.length := by
  unfold afterStyle? at h
  split at h
  · have := length_afterParameters?_lt h
    simp only [List.length_cons]
    omega
  · have := length_afterParameters?_lt h
    simp only [List.length_cons]
    omega
  · simp at h

variable (digits)

def dropStyles (s : List Char) : List Char :=
  match s with
  | [] => []
  | c :: r =>
    match _h : afterStyle? digits (c :: r) with
    | some rest => dropStyles rest
    | none => c :: dropStyles r
termination_by s.length
decreasing_by
  · exact length_afterStyle?_lt (by assumption)
  · simp

end

/-! ## Commands -/

/-- A command in a text: where it starts, how long it is, and what it says. -/
structure Command where
  start : Nat
  length : Nat
  parameter : List Char
  deriving DecidableEq, Repr

/-- The parameter of a command and what follows it, where the text begins after `ESC ]`. -/
def afterBell? (s : List Char) : Option (List Char × List Char) :=
  match s.dropWhile (· != '\x07') with
  | [] => none
  | _ :: r => some (s.takeWhile (· != '\x07'), dropCloseMark r)

/-- The parameter of the command at the start of the text and what follows it, if there is one. -/
def afterCommand? : List Char → Option (List Char × List Char)
  | '\x01' :: '\x1b' :: ']' :: r => afterBell? r
  | '\x1b' :: ']' :: r => afterBell? r
  | _ => none

theorem length_afterBell?_lt {s p t : List Char} (h : afterBell? s = some (p, t)) :
    t.length < s.length := by
  have hd : (s.dropWhile (· != '\x07')).length ≤ s.length := (List.dropWhile_sublist _).length_le
  unfold afterBell? at h
  split at h
  · simp at h
  · next r he =>
    rw [he, List.length_cons] at hd
    simp only [Option.some.injEq, Prod.mk.injEq] at h
    have := length_dropCloseMark_le r
    rw [← h.2]
    omega

theorem length_afterCommand?_lt {s p t : List Char} (h : afterCommand? s = some (p, t)) :
    t.length < s.length := by
  unfold afterCommand? at h
  split at h
  · have := length_afterBell?_lt h
    simp only [List.length_cons]
    omega
  · have := length_afterBell?_lt h
    simp only [List.length_cons]
    omega
  · simp at h

/-- The commands of a text whose first character has number `n`. -/
def commandsFrom (n : Nat) (s : List Char) : List Command :=
  match s with
  | [] => []
  | c :: r =>
    match _h : afterCommand? (c :: r) with
    | some (p, rest) =>
      let length := (c :: r).length - rest.length
      ⟨n, length, p⟩ :: commandsFrom (n + length) rest
    | none => commandsFrom (n + 1) r
termination_by s.length
decreasing_by
  · exact length_afterCommand?_lt (by assumption)
  · simp

/-- Takes out the characters where the command stands. -/
def Command.cut (k : Command) (s : List Char) : List Char :=
  s.take k.start ++ s.drop (k.start + k.length)

/-- Whether the command sets the title: one semicolon, and before it some of the digits `02`. -/
def Command.setsTitle (k : Command) : Bool :=
  k.parameter.count ';' == 1 &&
    ["", "0", "2", "02"].elem (String.ofList (k.parameter.takeWhile (· != ';')))

/-- The text without its commands. They are cut out one after the other, each at the numbers that
its characters have in the whole text, so a cut after the first can hit other characters. -/
def cutCommands (s : List Char) : List Char :=
  (commandsFrom 0 s).foldl (fun s k => k.cut s) s

def setsTitle (s : List Char) : Bool := (commandsFrom 0 s).any Command.setsTitle

/-- The text as an output that is no terminal shows it. -/
def plain? (digits : DigitTable) (s : List Char) : Option (List Char) :=
  if setsTitle s then none else some (dropStyles digits (cutCommands s))

end Covenant.Text
