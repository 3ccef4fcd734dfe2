import Covenant.Text.Blank
import Covenant.Text.Line

/-!
# Cutting a text into lines

A text that is empty or ends with a newline can be cut off before its lines are taken
(`lines_append`). The lines of a text are `Lined`: all but the last end with a newline.

Unifying newlines leaves no `\r`. It goes through `++` but for one case: a text that ends with
`\r` and one that begins with `\n` share a newline (`unifyNewlines_append`,
`unifyNewlines_append_shared`).
-/

namespace Covenant.Text

/-! ## Ended texts -/

/-- Whether the text has no incomplete last line. -/
def Ended (s : List Char) : Prop := ∀ c, s.getLast? = some c → c = '\n'

theorem ended_nil : Ended [] := nofun

theorem ended_concat (s : List Char) : Ended (s ++ ['\n']) := by
  intro c hc
  simpa [eq_comm] using hc

theorem Ended.append {a b : List Char} (ha : Ended a) (hb : Ended b) : Ended (a ++ b) := by
  intro c hc
  rw [List.getLast?_append] at hc
  cases hl : b.getLast? with
  | none => exact ha c (by simpa [hl] using hc)
  | some x => exact hb c (by simpa [hl] using hc)

theorem Ended.tail {c : Char} {r : List Char} (h : Ended (c :: r)) : Ended r := by
  intro x hx
  apply h
  rw [List.getLast?_cons, hx]
  rfl

/-! ## Lines -/

theorem lines_eq_nil_iff {s : List Char} : lines s = [] ↔ s = [] := by
  cases s with
  | nil => simp [lines]
  | cons c r =>
    rw [lines]
    split
    · simp
    · split <;> simp

theorem lines_append {a : List Char} (h : Ended a) (b : List Char) :
    lines (a ++ b) = lines a ++ lines b := by
  induction a with
  | nil => rfl
  | cons c r ih =>
    rw [List.cons_append, lines, lines, ih h.tail]
    split
    · rfl
    · next hc =>
      -- `c` is no newline, so it is not the last character
      have hr : lines r ≠ [] := by
        intro hn
        rw [lines_eq_nil_iff] at hn
        subst hn
        exact hc (h c rfl)
      cases hl : lines r with
      | nil => exact absurd hl hr
      | cons l ls => rfl

theorem lines_of_not_mem {s : List Char} (h : '\n' ∉ s) (hs : s ≠ []) : lines s = [s] := by
  induction s with
  | nil => exact absurd rfl hs
  | cons c r ih =>
    have hc : c ≠ '\n' := fun e => h (e ▸ List.mem_cons_self)
    have hr : '\n' ∉ r := fun hm => h (List.mem_cons_of_mem _ hm)
    rw [lines, if_neg hc]
    by_cases he : r = []
    · subst he
      rfl
    · rw [ih hr he]

theorem lines_concat {s : List Char} (h : '\n' ∉ s) : lines (s ++ ['\n']) = [s ++ ['\n']] := by
  induction s with
  | nil => rfl
  | cons c r ih =>
    have hc : c ≠ '\n' := fun e => h (e ▸ List.mem_cons_self)
    have hr : '\n' ∉ r := fun hm => h (List.mem_cons_of_mem _ hm)
    rw [List.cons_append, lines, if_neg hc, ih hr]

/-- One line: it has no newline but perhaps at its end. -/
def IsLine (l : Line) : Prop := ∃ body, '\n' ∉ body ∧ (l = body ++ ['\n'] ∨ l = body ∧ body ≠ [])

theorem lines_of_isLine {l : Line} (h : IsLine l) : lines l = [l] := by
  obtain ⟨body, hb, rfl | ⟨rfl, hne⟩⟩ := h
  · exact lines_concat hb
  · exact lines_of_not_mem hb hne

theorem IsLine.cons {c : Char} {l : Line} (hc : c ≠ '\n') (h : IsLine l) : IsLine (c :: l) := by
  obtain ⟨body, hb, hl⟩ := h
  refine ⟨c :: body, ?_, ?_⟩
  · rw [List.mem_cons, not_or]
    exact ⟨fun e => hc e.symm, hb⟩
  · rcases hl with rfl | ⟨rfl, -⟩
    · exact .inl rfl
    · exact .inr ⟨rfl, by simp⟩

/-- Lines as they are read from a text: only the last may be incomplete. -/
def Lined : List Line → Prop
  | [] => True
  | l :: ls => IsLine l ∧ (ls ≠ [] → Ended l) ∧ Lined ls

theorem lined_lines (s : List Char) : Lined (lines s) := by
  induction s with
  | nil => trivial
  | cons c r ih =>
    rw [lines]
    split
    · next hc =>
      subst hc
      exact ⟨⟨[], by simp, .inl rfl⟩, fun _ => ended_concat [], ih⟩
    · next hc =>
      split
      · exact ⟨⟨[c], by simpa [eq_comm] using hc, .inr ⟨rfl, by simp⟩⟩, fun h => absurd rfl h,
          trivial⟩
      · next l ls he =>
        rw [he] at ih
        obtain ⟨hl, hend, hls⟩ := ih
        refine ⟨hl.cons hc, fun hne => ?_, hls⟩
        intro x hx
        have hne' : l ≠ [] := lines_ne_nil (s := r) (he ▸ List.mem_cons_self)
        rw [List.getLast?_cons, List.getLast?_eq_some_getLast hne'] at hx
        exact hend hne x (by rw [List.getLast?_eq_some_getLast hne']; exact hx)

theorem Lined.isLine {ls : List Line} (h : Lined ls) : ∀ l ∈ ls, IsLine l := by
  induction ls with
  | nil => exact nofun
  | cons l ls ih =>
    obtain ⟨hl, -, hls⟩ := h
    intro l' hl'
    rcases List.mem_cons.1 hl' with rfl | hl'
    · exact hl
    · exact ih hls l' hl'

theorem Lined.of_append {a b : List Line} (h : Lined (a ++ b)) : Lined b := by
  induction a with
  | nil => exact h
  | cons l a ih => exact ih h.2.2

theorem Lined.of_suffix {ls ls' : List Line} (h : Lined ls) (hs : ls' <:+ ls) : Lined ls' := by
  obtain ⟨a, rfl⟩ := hs
  exact h.of_append

/-! ## Blank characters -/

theorem isBlank_newline : isBlank '\n' = true := by decide

theorem mem_of_mem_strip {s : List Char} {c : Char} (h : c ∈ strip s) : c ∈ s := by
  rw [strip, stripRight, List.mem_reverse] at h
  have h := (List.dropWhile_sublist _).subset h
  rw [List.mem_reverse] at h
  exact (List.dropWhile_sublist _).subset h

theorem strip_cons_of_isBlank {c : Char} (h : isBlank c = true) (s : List Char) :
    strip (c :: s) = strip s := by
  rw [strip, stripLeft, List.dropWhile_cons_of_pos h]
  rfl

theorem strip_of_isBlankLine {s : List Char} (h : isBlankLine s = true) : strip s = [] := by
  induction s with
  | nil => rfl
  | cons c s ih =>
    rw [isBlankLine, List.all_cons, Bool.and_eq_true] at h
    rw [strip_cons_of_isBlank h.1, ih h.2]

theorem stripRight_concat_of_isBlank {c : Char} (h : isBlank c = true) (s : List Char) :
    stripRight (s ++ [c]) = stripRight s := by
  simp [stripRight, h]

theorem strip_concat_of_isBlank {c : Char} (h : isBlank c = true) (s : List Char) :
    strip (s ++ [c]) = strip s := by
  induction s with
  | nil => simp [strip, stripLeft, stripRight, h]
  | cons a s ih =>
    by_cases ha : isBlank a
    · rw [List.cons_append, strip_cons_of_isBlank ha, strip_cons_of_isBlank ha, ih]
    · have hs : ∀ t : List Char, stripLeft (a :: t) = a :: t := fun t =>
        List.dropWhile_cons_of_neg ha
      rw [strip, strip, List.cons_append, hs, hs, ← List.cons_append,
        stripRight_concat_of_isBlank h]

theorem stripRight_cons_of_not_isBlank {c : Char} (h : isBlank c = false) (s : List Char) :
    stripRight (c :: s) = c :: stripRight s := by
  have hc : [c].dropWhile isBlank = [c] := List.dropWhile_cons_of_neg (by simp [h])
  rw [stripRight, List.reverse_cons, List.dropWhile_append, hc]
  split
  · next he =>
    rw [List.isEmpty_iff] at he
    rw [stripRight, he]
    rfl
  · rw [List.reverse_append]
    rfl

theorem strip_cons_of_not_isBlank {c : Char} (h : isBlank c = false) (s : List Char) :
    strip (c :: s) = c :: stripRight s := by
  rw [strip, stripLeft, List.dropWhile_cons_of_neg (by simp [h]), stripRight_cons_of_not_isBlank h]

theorem stripRight_stripRight (s : List Char) : stripRight (stripRight s) = stripRight s := by
  have hd : ∀ l : List Char, (l.dropWhile isBlank).dropWhile isBlank = l.dropWhile isBlank := by
    intro l
    induction l with
    | nil => rfl
    | cons c l ih =>
      by_cases hc : isBlank c
      · rw [List.dropWhile_cons_of_pos hc, ih]
      · rw [List.dropWhile_cons_of_neg hc, List.dropWhile_cons_of_neg hc]
  rw [stripRight, stripRight, List.reverse_reverse, hd]

@[simp] theorem strip_strip (s : List Char) : strip (strip s) = strip s := by
  induction s with
  | nil => rfl
  | cons c s ih =>
    cases hc : isBlank c with
    | true => rw [strip_cons_of_isBlank hc, ih]
    | false =>
      rw [strip_cons_of_not_isBlank hc, strip_cons_of_not_isBlank hc, stripRight_stripRight]

theorem not_mem_strip_of_isLine {l : Line} (h : IsLine l) : '\n' ∉ strip l := by
  obtain ⟨body, hb, rfl | ⟨rfl, -⟩⟩ := h
  · rw [strip_concat_of_isBlank isBlank_newline]
    exact fun hm => hb (mem_of_mem_strip hm)
  · exact fun hm => hb (mem_of_mem_strip hm)

/-! ## Newlines -/

theorem not_mem_unifyNewlines (s : List Char) : '\r' ∉ unifyNewlines s := by
  fun_induction unifyNewlines s with
  | case1 => simp
  | case2 r ih => simpa using ih
  | case3 c r hc ih =>
    rw [List.mem_cons, not_or]
    refine ⟨?_, ih⟩
    split
    · decide
    · next h => exact fun e => h e.symm

theorem unifyNewlines_of_not_mem {s : List Char} (h : '\r' ∉ s) : unifyNewlines s = s := by
  fun_induction unifyNewlines s with
  | case1 => rfl
  | case2 r ih => exact absurd List.mem_cons_self h
  | case3 c r hc ih =>
    have hcr : c ≠ '\r' := fun e => h (e ▸ List.mem_cons_self)
    rw [if_neg hcr, ih fun hm => h (List.mem_cons_of_mem _ hm)]

/-- Newlines are unified part by part when no `\r\n` is divided. -/
theorem unifyNewlines_append {a : List Char} (h : a.getLast? ≠ some '\r') (b : List Char) :
    unifyNewlines (a ++ b) = unifyNewlines a ++ unifyNewlines b := by
  fun_induction unifyNewlines a with
  | case1 => rfl
  | case2 r ih =>
    have hr : r.getLast? ≠ some '\r' := by
      intro hr
      apply h
      rw [List.getLast?_cons, List.getLast?_cons, hr]
      rfl
    rw [List.cons_append, List.cons_append, unifyNewlines, ih hr, List.cons_append]
  | case3 c r hc ih =>
    have hr : r.getLast? ≠ some '\r' := by
      intro hr
      apply h
      rw [List.getLast?_cons, hr]
      rfl
    have hne : ∀ r', c = '\r' → r ++ b = '\n' :: r' → False := by
      rintro r' rfl hb
      cases r with
      | nil => exact h rfl
      | cons x r =>
        obtain ⟨rfl, -⟩ := List.cons.inj hb
        exact hc r rfl rfl
    rw [List.cons_append, unifyNewlines.eq_3 _ _ hne, ih hr, List.cons_append]

/-- A `\r` at the end of a text and a `\n` at the start of what follows are one newline. -/
theorem unifyNewlines_append_shared {a : List Char} (h : a.getLast? = some '\r') (b : List Char) :
    unifyNewlines (a ++ '\n' :: b) = unifyNewlines a ++ unifyNewlines b := by
  fun_induction unifyNewlines a with
  | case1 => cases h
  | case2 r ih =>
    have hr : r.getLast? = some '\r' := by
      cases r with
      | nil => simp at h
      | cons x r => simpa [List.getLast?_cons] using h
    rw [List.cons_append, List.cons_append, unifyNewlines, ih hr, List.cons_append]
  | case3 c r hc ih =>
    cases r with
    | nil =>
      obtain rfl : c = '\r' := by simpa using h
      simp [unifyNewlines]
    | cons x r =>
      have hr : (x :: r).getLast? = some '\r' := by simpa [List.getLast?_cons] using h
      have hne : ∀ r', c = '\r' → x :: r ++ '\n' :: b = '\n' :: r' → False := by
        rintro r' rfl hb
        obtain ⟨rfl, -⟩ := List.cons.inj hb
        exact hc r rfl rfl
      rw [List.cons_append, unifyNewlines.eq_3 _ _ hne, ih hr, List.cons_append]

theorem getLast?_unifyNewlines {s : List Char} (h : s.getLast? = some '\r') :
    (unifyNewlines s).getLast? = some '\n' := by
  fun_induction unifyNewlines s with
  | case1 => cases h
  | case2 r ih =>
    cases r with
    | nil => simp at h
    | cons x r => rw [List.getLast?_cons, ih (by simpa [List.getLast?_cons] using h)]; rfl
  | case3 c r hc ih =>
    cases r with
    | nil =>
      obtain rfl : c = '\r' := by simpa using h
      simp [unifyNewlines]
    | cons x r => rw [List.getLast?_cons, ih (by simpa [List.getLast?_cons] using h)]; rfl

end Covenant.Text
