/-!
# Lines

Three ways to take a text apart. Files are read in lines that keep their terminator, after each
`\r\n` and `\r` has become `\n`. Model output is divided at every `\n`. A list of names is divided
into rows at any line boundary of Unicode.
-/

namespace Covenant.Text

/-- One line, with its terminator where it has one. -/
abbrev Line := List Char

/-- Each `\r\n` and each other `\r` becomes `\n`. -/
def unifyNewlines : List Char → List Char
  | [] => []
  | '\r' :: '\n' :: r => '\n' :: unifyNewlines r
  | c :: r => (if c = '\r' then '\n' else c) :: unifyNewlines r

/-- The lines of a text, each ended by `\n` but perhaps the last. -/
def lines : List Char → List Line
  | [] => []
  | c :: r =>
    if c = '\n' then [c] :: lines r
    else
      match lines r with
      | [] => [[c]]
      | l :: ls => (c :: l) :: ls

/-- The pieces between the elements at which one ends: always one more than there are. -/
def pieces {α : Type} (ends : α → Bool) : List α → List (List α)
  | [] => [[]]
  | a :: r =>
    if ends a then [] :: pieces ends r
    else
      match pieces ends r with
      | [] => [[a]]
      | l :: ls => (a :: l) :: ls

/-- The pieces of a text between the occurrences of `d`. -/
def cells (d : Char) (s : List Char) : List Line := pieces (· == d) s

/-- The characters that end a row. -/
def isRowEnd (c : Char) : Bool :=
  let n := c.toNat
  (10 ≤ n && n ≤ 13) || (0x1c ≤ n && n ≤ 0x1e) || n == 0x85 || n == 0x2028 || n == 0x2029

/-- The rows of a text without what ends them; `\r\n` ends one row. -/
def rows : List Char → List Line
  | [] => []
  | '\r' :: '\n' :: r => [] :: rows r
  | c :: r =>
    if isRowEnd c then [] :: rows r
    else
      match rows r with
      | [] => [[c]]
      | l :: ls => (c :: l) :: ls

theorem flatten_lines (s : List Char) : (lines s).flatten = s := by
  induction s with
  | nil => rfl
  | cons c r ih =>
    rw [lines]
    split
    · simp [ih]
    · split <;> simp_all

theorem lines_ne_nil {s : List Char} {l : Line} (h : l ∈ lines s) : l ≠ [] := by
  induction s generalizing l with
  | nil => simp [lines] at h
  | cons c r ih =>
    rw [lines] at h
    split at h
    · rcases List.mem_cons.1 h with rfl | h
      · simp
      · exact ih h
    · split at h
      · simp_all
      · next l' ls he =>
        rcases List.mem_cons.1 h with rfl | h
        · simp
        · exact ih (he ▸ List.mem_cons_of_mem _ h)

end Covenant.Text
