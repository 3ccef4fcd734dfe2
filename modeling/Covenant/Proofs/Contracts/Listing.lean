import Covenant.Contracts.Listing
import Mathlib.Data.List.Chain

/-!
# The functions of a contracts text

The blocks of a contracts text are the runs of lines that are not blank above the mark of the type
invariants, and the last line of a run is the line of its function. Every blank line lists the line
above it, without a look at that line. So the list is that of the runs, with an entry too many for
each blank line below another one, and one more at its front if the text begins with a blank line:
that one is the last line of the text (`listedFunctions_eq_runEnds_iff`).
-/

namespace Covenant.Contracts

open Text

/-! ## Runs -/

/-- The maximal runs of lines that are not blank. -/
def runs (ls : List Line) : List (List Line) :=
  (pieces isBlankLine ls).filter fun run => !run.isEmpty

/-- The last lines of the runs. -/
def runEnds (ls : List Line) : List Line := (runs ls).filterMap List.getLast?

theorem pieces_cons_of_not {α : Type} {ends : α → Bool} {a : α} (ha : ends a = false)
    (r : List α) :
    ∃ l ls, pieces ends r = l :: ls ∧ pieces ends (a :: r) = (a :: l) :: ls ∧
      (l = [] ↔ ∀ b ∈ r.head?, ends b = true) := by
  cases r with
  | nil => exact ⟨[], [], rfl, by simp [pieces, ha], by simp⟩
  | cons b r =>
    cases hb : ends b with
    | true =>
      exact ⟨[], pieces ends r, by simp [pieces, hb], by simp [pieces, ha, hb], by simp [hb]⟩
    | false =>
      cases hr : pieces ends r with
      | nil => exact ⟨[b], [], by simp [pieces, hb, hr], by simp [pieces, ha, hb, hr], by simp [hb]⟩
      | cons l ls =>
        exact ⟨b :: l, ls, by simp [pieces, hb, hr], by simp [pieces, ha, hb, hr], by simp [hb]⟩

theorem runEnds_nil : runEnds [] = [] := rfl

theorem runEnds_cons_of_blank {l : Line} (h : isBlankLine l = true) (r : List Line) :
    runEnds (l :: r) = runEnds r := by
  simp [runEnds, runs, pieces, h]

/-- A line that is not blank ends a run if a blank line is next, or none. -/
theorem runEnds_cons_of_last {l : Line} {r : List Line} (h : isBlankLine l = false)
    (hr : ∀ b ∈ r.head?, isBlankLine b = true) : runEnds (l :: r) = l :: runEnds r := by
  obtain ⟨run, rest, hpieces, hcons, hnil⟩ := pieces_cons_of_not h r
  obtain rfl := hnil.2 hr
  simp [runEnds, runs, hpieces, hcons]

/-- A line that is not blank goes on with the run of the next one. -/
theorem runEnds_cons_cons {l b : Line} (h : isBlankLine l = false) (hb : isBlankLine b = false)
    (r : List Line) : runEnds (l :: b :: r) = runEnds (b :: r) := by
  obtain ⟨run, rest, hpieces, hcons, hnil⟩ := pieces_cons_of_not h (b :: r)
  have hrun : run ≠ [] := by
    intro he
    have := hnil.1 he b rfl
    rw [hb] at this
    cases this
  obtain ⟨c, run, rfl⟩ := List.exists_cons_of_ne_nil hrun
  simp [runEnds, runs, hpieces, hcons, List.filterMap_cons, List.getLast?_cons_cons]

theorem not_isBlankLine_of_mem_runEnds {ls : List Line} {l : Line} (h : l ∈ runEnds ls) :
    isBlankLine l = false := by
  induction ls with
  | nil => cases h
  | cons a r ih =>
    cases ha : isBlankLine a with
    | true =>
      rw [runEnds_cons_of_blank ha] at h
      exact ih h
    | false =>
      by_cases hr : ∀ b ∈ r.head?, isBlankLine b = true
      · rw [runEnds_cons_of_last ha hr] at h
        rcases List.mem_cons.1 h with rfl | h
        · exact ha
        · exact ih h
      · cases r with
        | nil => exact absurd (by simp) hr
        | cons b r =>
          have hb : isBlankLine b = false := by simpa using hr
          rw [runEnds_cons_cons ha hb] at h
          exact ih h

/-- Every run has one end. -/
theorem length_runEnds (ls : List Line) : (runEnds ls).length = (runs ls).length := by
  have hne : ∀ run ∈ runs ls, run ≠ [] := by
    intro run hrun he
    have := (List.mem_filter.1 hrun).2
    rw [he] at this
    cases this
  unfold runEnds
  generalize runs ls = rs at hne
  induction rs with
  | nil => rfl
  | cons run rs ih =>
    have hlast := List.getLast?_eq_some_getLast (hne run List.mem_cons_self)
    rw [List.filterMap_cons_some hlast, List.length_cons, List.length_cons,
      ih fun run hrun => hne run (List.mem_cons_of_mem _ hrun)]

/-! ## Entries -/

/-- How many blank lines stand right below a blank line. -/
def repeatedBlanks : List Line → Nat
  | [] => 0
  | [_] => 0
  | a :: b :: r => (if isBlankLine a && isBlankLine b then 1 else 0) + repeatedBlanks (b :: r)

theorem repeatedBlanks_eq_zero_iff {ls : List Line} :
    repeatedBlanks ls = 0 ↔
      ls.IsChain fun a b => ¬ (isBlankLine a = true ∧ isBlankLine b = true) := by
  induction ls with
  | nil => simp [repeatedBlanks]
  | cons a r ih =>
    cases r with
    | nil => simp [repeatedBlanks]
    | cons b r =>
      rw [repeatedBlanks, List.isChain_cons_cons, ← ih, Nat.add_eq_zero_iff]
      simp

/-- The lines of the blocks: those above the mark of the type invariants. -/
def blockLines (ls : List Line) : List Line := ls.takeWhile fun l => !marksInvariants l

theorem blockLines_cons_of_mark {l : Line} (h : marksInvariants l = true) (r : List Line) :
    blockLines (l :: r) = [] := by
  simp [blockLines, h]

theorem blockLines_cons {l : Line} (h : marksInvariants l = false) (r : List Line) :
    blockLines (l :: r) = l :: blockLines r := by
  simp [blockLines, h]

/-- The entries below the line `p`: those that are not blank are the ends of the runs, and the
others stem from repeated blank lines. -/
theorem listedFrom_some {last : Line} (p : Line) (ls : List Line)
    (hlast : (p :: ls).getLast? = some last) :
    (listedFrom last (some p) ls).filter (fun l => !isBlankLine l) =
        runEnds (p :: blockLines ls) ∧
      (listedFrom last (some p) ls).countP isBlankLine = repeatedBlanks (p :: blockLines ls) := by
  induction ls generalizing p with
  | nil =>
    obtain rfl : p = last := by simpa using hlast
    cases hp : isBlankLine p with
    | true =>
      simp [listedFrom, blockLines, repeatedBlanks, runEnds_cons_of_blank hp, runEnds_nil, hp]
    | false =>
      have hend : runEnds [p] = [p] := runEnds_cons_of_last hp (by simp)
      simp [listedFrom, blockLines, repeatedBlanks, hend, hp]
  | cons l r ih =>
    cases hm : marksInvariants l with
    | true =>
      -- the mark lists the line above it only if it is not blank
      rw [blockLines_cons_of_mark hm]
      cases hp : isBlankLine p with
      | true => simp [listedFrom, hm, repeatedBlanks, runEnds_cons_of_blank hp, runEnds_nil, hp]
      | false =>
        have hend : runEnds [p] = [p] := runEnds_cons_of_last hp (by simp)
        simp [listedFrom, hm, repeatedBlanks, hend, hp]
    | false =>
      obtain ⟨hends, hcount⟩ := ih l (by rwa [List.getLast?_cons_cons] at hlast)
      rw [blockLines_cons hm]
      cases hl : isBlankLine l with
      | true =>
        have hstep : listedFrom last (some p) (l :: r) = p :: listedFrom last (some l) r := by
          simp [listedFrom, hm, hl]
        rw [hstep, List.filter_cons, List.countP_cons, hends, hcount, repeatedBlanks]
        cases hp : isBlankLine p with
        | true => simp [runEnds_cons_of_blank hp, hl, Nat.add_comm]
        | false => simp [runEnds_cons_of_last (r := l :: blockLines r) hp (by simp [hl])]
      | false =>
        have hstep : listedFrom last (some p) (l :: r) = listedFrom last (some l) r := by
          simp [listedFrom, hm, hl]
        rw [hstep, hends, hcount, repeatedBlanks]
        cases hp : isBlankLine p with
        | true => simp [runEnds_cons_of_blank hp, hl]
        | false => simp [runEnds_cons_cons hp hl]

/-! ## The list -/

/-- What a blank first line lists: the last line of the text. -/
def leadingEntry (text : List Char) : List Line :=
  if text.isEmpty then []
  else if (blockLines (cells '\n' text)).head?.any isBlankLine then
    (cells '\n' text).getLast?.toList
  else []

theorem leadingEntry_eq_nil_iff {text : List Char} :
    leadingEntry text = [] ↔
      text = [] ∨ ∀ l ∈ (blockLines (cells '\n' text)).head?, isBlankLine l = false := by
  unfold leadingEntry
  cases text with
  | nil => simp
  | cons c text =>
    cases hls : cells '\n' (c :: text) with
    | nil => simp [blockLines]
    | cons l r =>
      have hlast := List.getLast?_eq_some_getLast (List.cons_ne_nil l r)
      cases hhead : (blockLines (l :: r)).head? with
      | none => simp
      | some b => cases hb : isBlankLine b <;> simp [hb, hlast]

/-- The functions that are listed: the ends of the runs, with further entries for blank lines. -/
theorem listedFunctions_entries (text : List Char) :
    ∃ entries, listedFunctions text = leadingEntry text ++ entries ∧
      entries.filter (fun l => !isBlankLine l) = runEnds (blockLines (cells '\n' text)) ∧
      entries.countP isBlankLine = repeatedBlanks (blockLines (cells '\n' text)) := by
  by_cases htext : text = []
  · subst htext
    exact ⟨[], rfl, by decide, by decide⟩
  have hne : text.isEmpty = false := by simpa using htext
  rw [listedFunctions, leadingEntry, hne]
  simp only [Bool.false_eq_true, if_false]
  cases hls : cells '\n' text with
  | nil => exact ⟨[], rfl, rfl, rfl⟩
  | cons l r =>
    have hlast := List.getLast?_eq_some_getLast (List.cons_ne_nil l r)
    rw [hlast]
    cases hm : marksInvariants l with
    | true =>
      rw [blockLines_cons_of_mark hm]
      exact ⟨[], by simp [listedFrom, hm], rfl, rfl⟩
    | false =>
      obtain ⟨hends, hcount⟩ := listedFrom_some l r hlast
      rw [blockLines_cons hm]
      refine ⟨_, ?_, hends, hcount⟩
      cases hl : isBlankLine l with
      | true => simp [listedFrom, hm, hl]
      | false => simp [listedFrom, hm, hl]

/-- The functions that are listed are the ends of the runs above the mark, of which none is blank
and each run has one, exactly when the text is empty or its blocks do not begin with a blank line
and have no two blank lines in a row. Otherwise the ends of the runs are what is left of the list
without its blank entries and without the last line of the text, which stands at the front if the
first line is blank. -/
theorem listedFunctions_eq_runEnds_iff (text : List Char) :
    let blocks := blockLines (cells '\n' text)
    (∀ l ∈ runEnds blocks, isBlankLine l = false) ∧
      (runEnds blocks).length = (runs blocks).length ∧
      (∃ entries, listedFunctions text = leadingEntry text ++ entries ∧
        entries.filter (fun l => !isBlankLine l) = runEnds blocks ∧
        entries.countP isBlankLine = repeatedBlanks blocks) ∧
      (listedFunctions text = runEnds blocks ↔
        text = [] ∨ (∀ l ∈ blocks.head?, isBlankLine l = false) ∧
          blocks.IsChain fun a b => ¬ (isBlankLine a = true ∧ isBlankLine b = true)) := by
  intro blocks
  obtain ⟨entries, hlisted, hends, hcount⟩ := listedFunctions_entries text
  refine ⟨fun l => not_isBlankLine_of_mem_runEnds, length_runEnds _,
    ⟨entries, hlisted, hends, hcount⟩, ?_⟩
  -- no entry is lost, so the lists are the same as soon as they are equally long
  have hlength : repeatedBlanks blocks + (runEnds blocks).length = entries.length := by
    rw [← hcount, ← hends]
    simpa [List.countP_eq_length_filter] using
      (List.length_eq_countP_add_countP isBlankLine (l := entries)).symm
  have hiff : listedFunctions text = runEnds blocks ↔
      leadingEntry text = [] ∧ repeatedBlanks blocks = 0 := by
    rw [hlisted]
    constructor
    · intro h
      have := congrArg List.length h
      rw [List.length_append] at this
      exact ⟨List.length_eq_zero_iff.1 (by omega), by omega⟩
    · rintro ⟨hleading, hrepeated⟩
      rw [hleading, List.nil_append, ← hends, List.filter_eq_self.2]
      rw [hrepeated] at hcount
      intro l hl
      simpa using List.countP_eq_zero.1 hcount l hl
  rw [hiff, leadingEntry_eq_nil_iff, repeatedBlanks_eq_zero_iff]
  constructor
  · rintro ⟨htext | hhead, hchain⟩
    · exact .inl htext
    · exact .inr ⟨hhead, hchain⟩
  · rintro (rfl | ⟨hhead, hchain⟩)
    · exact ⟨.inl rfl, List.isChain_singleton _⟩
    · exact ⟨.inr hhead, hchain⟩

/-- A second blank line between two blocks is listed, and a blank first line lists the last block
twice. -/
theorem listedFunctions_lists_blank :
    listedFunctions "S\nf\n\n\nT\ng\n".toList = ["f".toList, [], "g".toList] ∧
      runEnds (blockLines (cells '\n' "S\nf\n\n\nT\ng\n".toList)) = ["f".toList, "g".toList] ∧
      listedFunctions "\nS\nf".toList = ["f".toList, "f".toList] ∧
      runEnds (blockLines (cells '\n' "\nS\nf".toList)) = ["f".toList] := by
  decide +kernel

end Covenant.Contracts
