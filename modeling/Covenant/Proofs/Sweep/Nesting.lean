import Covenant.Proofs.Sweep.Scan
import Covenant.Proofs.World.Effect

/-!
# Sweeps over sources that are laid out

In a source that is laid out, items nest: below the header of an item stand a line of its own and
further lines and items, and it ends at a closing line with the indentation of the header. A sweep
knows of the items only through indentation, and it does not look at the line below a header. On
these sources that is enough: it compares a line for the innermost item around it, and below a
closing line it is back in the items around the one that ends (`walk_laid`).
-/

namespace Covenant.Merge

open Text Header Contracts

/-! ## Items and their lines -/

/-- The header of an item that ends on a later line. -/
structure ItemHeader where
  line : Line
  owner : Name
  opensScope_line : opensScope line = true
  endsWith_line : endsWith "\x7d\n" line = false
  owner?_line : owner? (strip line) = some owner
  owner_ne : owner ≠ noOwner

/-- The item of the header. -/
def ItemHeader.scope (h : ItemHeader) : Scope := ⟨h.owner, indentation h.line⟩

/-- The innermost of these items, or the file. -/
def innermost (around : List ItemHeader) : Scope := (around.head?.map ItemHeader.scope).getD .file

/-- The line is no header, and does not end the innermost item, if there is one. -/
structure IsPlain (around : List ItemHeader) (line : Line) : Prop where
  opensScope_eq : opensScope line = false
  closedBy_eq : ∀ h ∈ around.head?, h.scope.closedBy line = false

/-- A line of a source that is laid out, with the headers of the items around it, innermost
first. -/
inductive LaidLine
  /-- The header of an item, with the items around that item. -/
  | header (h : ItemHeader) (around : List ItemHeader)
  /-- The line below a header. -/
  | first (line : Line) (around : List ItemHeader) (hplain : IsPlain around line)
  | plain (line : Line) (around : List ItemHeader) (hplain : IsPlain around line)
  /-- The last line of an item, with the items around that item. -/
  | closing (line : Line) (h : ItemHeader) (around : List ItemHeader)
      (hclosed : h.scope.closedBy line = true)

namespace LaidLine

def line : LaidLine → Line
  | header h _ => h.line
  | first line _ _ => line
  | plain line _ _ => line
  | closing line _ _ _ => line

def around : LaidLine → List ItemHeader
  | header _ around => around
  | first _ around _ => around
  | plain _ around _ => around
  | closing _ _ around _ => around

/-- Whether the line is neither a header nor the last line of an item. -/
def isPlain : LaidLine → Bool
  | header _ _ => false
  | first _ _ _ => true
  | plain _ _ _ => true
  | closing _ _ _ _ => false

/-- The items that are open below the line: below the header of an item this item as well, below its
last line only those around it. -/
def opened : LaidLine → List ItemHeader
  | header h around => h :: around
  | first _ around _ => around
  | plain _ around _ => around
  | closing _ _ around _ => around

end LaidLine

/-- The lines between two lines of the innermost of these items, or of the file: lines of its own,
and items with at least one line of their own. -/
inductive Laid : List ItemHeader → List LaidLine → Prop
  | nil (around : List ItemHeader) : Laid around []
  | plain {around : List ItemHeader} {line : Line} {rest : List LaidLine}
      (hplain : IsPlain around line) (hrest : Laid around rest) :
      Laid around (.plain line around hplain :: rest)
  | item {around : List ItemHeader} {h : ItemHeader} {first last : Line}
      {body rest : List LaidLine} (hfirst : IsPlain (h :: around) first)
      (hbody : Laid (h :: around) body) (hlast : h.scope.closedBy last = true)
      (hrest : Laid around rest) :
      Laid around (.header h around :: .first first (h :: around) hfirst ::
        (body ++ .closing last h around hlast :: rest))

/-! ## Scans over laid out lines -/

/-- The scan that knows just these items. -/
def scanAt (mode : Mode) (around : List ItemHeader) : Scan where
  mode := mode
  scopes := around.map ItemHeader.scope
  isBlank_indent := by
    intro s hs c hc
    obtain ⟨h, -, rfl⟩ := List.mem_map.1 hs
    exact isBlank_of_mem_indentation hc

@[simp] theorem scope_scanAt (mode : Mode) (around : List ItemHeader) :
    (scanAt mode around).scope = innermost around := by
  cases around <;> rfl

theorem Scan.next_of_closedBy {σ : Scan} {line : Line} (hm : σ.mode = .free)
    (ho : opensScope line = false) (hc : σ.scope.closedBy line = true) :
    σ.next line = σ.leave := by
  simp [Scan.next, hm, ho, hc]

theorem Scan.next_of_not_closedBy {σ : Scan} {line : Line} (hm : σ.mode = .free)
    (ho : opensScope line = false) (hc : σ.scope.closedBy line = false) :
    σ.next line = σ.withMode .free := by
  simp [Scan.next, hm, ho, hc]

namespace LaidLine

/-- What a scan knows when it meets the line. -/
def before : LaidLine → Scan
  | header _ around => scanAt .free around
  | first _ around _ => scanAt .slot around
  | plain _ around _ => scanAt .free around
  | closing _ h around _ => scanAt .free (h :: around)

/-- What a scan knows below the line. -/
def after : LaidLine → Scan
  | header h around => scanAt .slot (h :: around)
  | first _ around _ => scanAt .free around
  | plain _ around _ => scanAt .free around
  | closing _ _ around _ => scanAt .free around

theorem opensScope_closing {line : Line} {h : ItemHeader} (hclosed : h.scope.closedBy line = true) :
    opensScope line = false :=
  opensScope_of_closedBy (fun _ hc => isBlank_of_mem_indentation hc) hclosed

theorem next_before (x : LaidLine) : x.before.next x.line = x.after := by
  cases x with
  | header h around =>
    simp [before, after, line, scanAt, Scan.next, Scan.enter, h.opensScope_line, h.owner?_line,
      h.endsWith_line, h.owner_ne, ItemHeader.scope]
  | first l around hplain => rfl
  | plain l around hplain =>
    cases around with
    | nil =>
      cases hc : Scope.file.closedBy l with
      | false => exact Scan.next_of_not_closedBy rfl hplain.opensScope_eq hc
      | true =>
        -- a brace outside all items closes nothing
        exact Scan.next_of_closedBy rfl hplain.opensScope_eq hc
    | cons h around =>
      exact Scan.next_of_not_closedBy rfl hplain.opensScope_eq (hplain.closedBy_eq h rfl)
  | closing l h around hclosed =>
    exact Scan.next_of_closedBy rfl (opensScope_closing hclosed) hclosed

end LaidLine

/-- The lines lead from one scan to another, each to what the next one is met with. -/
def Joins : Scan → List LaidLine → Scan → Prop
  | σ, [], τ => σ = τ
  | σ, x :: xs, τ => σ = x.before ∧ Joins x.after xs τ

theorem Joins.append {σ τ υ : Scan} {xs ys : List LaidLine} (hxs : Joins σ xs τ)
    (hys : Joins τ ys υ) : Joins σ (xs ++ ys) υ := by
  induction xs generalizing σ with
  | nil =>
    obtain rfl : σ = τ := hxs
    exact hys
  | cons x xs ih => exact ⟨hxs.1, ih hxs.2⟩

/-- Laid out lines lead back to the items around them. -/
theorem Laid.joins {around : List ItemHeader} {xs : List LaidLine} (h : Laid around xs) :
    Joins (scanAt .free around) xs (scanAt .free around) := by
  induction h with
  | nil around => exact rfl
  | plain hplain hrest ih => exact ⟨rfl, ih⟩
  | item hfirst hbody hlast hrest ihbody ihrest =>
    exact ⟨rfl, rfl, ihbody.append ⟨rfl, ihrest⟩⟩

/-- A scan that goes down to one of the lines knows the items around it. -/
theorem Joins.through_eq {σ τ : Scan} {above below : List LaidLine} {x : LaidLine}
    (h : Joins σ (above ++ x :: below) τ) : σ.through (above.map LaidLine.line) = x.before := by
  induction above generalizing σ with
  | nil => exact h.1
  | cons y above ih =>
    obtain ⟨rfl, hrest⟩ := h
    show (y.before.next y.line).through (above.map LaidLine.line) = x.before
    rw [y.next_before]
    exact ih hrest

/-! ## Walks over laid out lines -/

/-- Only lines of the items themselves are compared. -/
theorem isPlain_of_compare {w : Walk} {s : State} {x : LaidLine} (hw : w.Follows x.before)
    (hs : w.ready = .ok s) (hact : w.action s x.line = .compare) : x.isPlain = true := by
  have hscope : s.scope = x.before.scope := scope_eq ((ready_frame hs).1.trans hw.scopes_eq)
  have hlook : w.mode = .free → s.look x.line = .compare := by
    intro hm
    by_cases hu : w.state.unread.isEmpty = true
    · simp [Walk.action, hm, hu] at hact
    · simpa [Walk.action, hm, hu] using hact
  cases x with
  | first | plain => rfl
  | header h around =>
    have := hlook hw.mode_eq
    simp [State.look, LaidLine.line, h.opensScope_line, h.owner?_line] at this
  | closing line h around hclosed =>
    have hclosed' : s.scope.closedBy line = true := by
      rw [hscope]
      exact hclosed
    have := hlook hw.mode_eq
    simp [State.look, LaidLine.line, LaidLine.opensScope_closing hclosed, hclosed'] at this

theorem scope_before {x : LaidLine} (h : x.isPlain = true) :
    x.before.scope = innermost x.around := by
  cases x with
  | first line around _ => exact scope_scanAt _ around
  | plain line around _ => exact scope_scanAt _ around
  | header | closing => cases h

theorem LaidLine.scopes_after (x : LaidLine) : x.after.scopes = x.opened.map ItemHeader.scope := by
  cases x <;> rfl

/-- In a source that is laid out a sweep compares only lines of the items themselves, each for the
innermost item around it, and so puts there only blocks of this item. Below each line it has, as
long as it looks for a block, just the items that are open there. -/
theorem walk_laid {source above below : List LaidLine} {x : LaidLine} {contracts : List Line}
    {w : Walk} (hsource : Laid [] source) (hsplit : source = above ++ x :: below)
    (hw : walk (above.map LaidLine.line) 0 ⟨.free, State.start contracts⟩ = .ok w) :
    (∀ s, w.ready = .ok s → w.action s x.line = .compare →
      x.isPlain = true ∧ s.scope.owner = (innermost x.around).owner) ∧
    (∀ p, w.placed? above.length x.line = some p →
      p.block.owner = (innermost x.around).owner) ∧
    (∀ v, w.state.unread ≠ [] → w.step above.length x.line = .ok v →
      v.state.scopes = x.opened.map ItemHeader.scope) := by
  subst hsplit
  have hstart : Walk.Follows ⟨.free, State.start contracts⟩ (scanAt .free []) := ⟨rfl, rfl⟩
  have hthrough := hsource.joins.through_eq
  have hfollows := walk_follows (.inl hstart) hw
  rw [hthrough] at hfollows
  have hcompare : ∀ s, w.ready = .ok s → w.action s x.line = .compare →
      x.isPlain = true ∧ s.scope.owner = (innermost x.around).owner := by
    intro s hs hact
    obtain hfollows | ⟨hm, hu⟩ := hfollows
    · have hplain := isPlain_of_compare hfollows hs hact
      have hscope : s.scope = x.before.scope :=
        scope_eq ((ready_frame hs).1.trans hfollows.scopes_eq)
      exact ⟨hplain, by rw [hscope, scope_before hplain]⟩
    · simp [Walk.action, hm, hu] at hact
  refine ⟨hcompare, ?_, ?_⟩
  · intro p hp
    unfold Walk.placed? at hp
    cases hs : w.ready with
    | error e => simp [hs] at hp
    | ok s =>
      by_cases hact : w.action s x.line = .compare
      · simp only [hs, hact, if_true] at hp
        obtain ⟨-, -, -, howner, -⟩ := placed?_eq_some hp
        rw [← howner]
        exact (hcompare s hs hact).2
      · simp [hs, hact] at hp
  · intro v hu hv
    have hfollows : w.Follows x.before := hfollows.resolve_right fun hidle => hu hidle.2
    have hnext := step_follows hfollows (fun _ => hu) hv
    rw [x.next_before] at hnext
    rw [hnext.scopes_eq, x.scopes_after]

/-- The last line of an item in another one, at which the function of a block has not been met. -/
theorem walk_laid_nested :
    let outer : ItemHeader :=
      ⟨"impl A \x7b\n".toList, ['A'], by decide, by decide, by decide, by decide⟩
    let inner : ItemHeader :=
      ⟨" impl B \x7b\n".toList, ['B'], by decide, by decide, by decide, by decide⟩
    ∃ (source above below : List LaidLine) (x : LaidLine) (w v : Walk),
      Laid [] source ∧ source = above ++ x :: below ∧ x.line = " \x7d\n".toList ∧
      walk (above.map LaidLine.line) 0 ⟨.free, State.start (linesOf "A\n#[x]\nc\n")⟩ = .ok w ∧
      w.state.scopes = [inner.scope, outer.scope] ∧ w.step above.length x.line = .ok v ∧
      v.state.scopes = [outer.scope] := by
  intro outer inner
  have ha : IsPlain [outer] " fn a()\n".toList := ⟨by decide, by decide⟩
  have hb : IsPlain [inner, outer] "  fn b()\n".toList := ⟨by decide, by decide⟩
  have hc : IsPlain [outer] " fn c()\n".toList := ⟨by decide, by decide⟩
  have hinner : inner.scope.closedBy " \x7d\n".toList = true := by decide
  have houter : outer.scope.closedBy "\x7d\n".toList = true := by decide
  let above : List LaidLine :=
    [.header outer [], .first _ [outer] ha, .header inner [outer], .first _ [inner, outer] hb]
  let x : LaidLine := .closing " \x7d\n".toList inner [outer] hinner
  let below : List LaidLine := [.plain _ [outer] hc, .closing _ outer [] houter]
  have hsource : Laid [] (above ++ x :: below) :=
    .item ha (.item hb (.nil _) hinner (.plain hc (.nil _))) houter (.nil [])
  obtain ⟨w, hw, hmet⟩ := exists_of_toOption_any
    (x := walk (["impl A \x7b\n", " fn a()\n", " impl B \x7b\n", "  fn b()\n"].map String.toList) 0
      ⟨.free, State.start (linesOf "A\n#[x]\nc\n")⟩)
    (p := fun w => w.state.scopes = [⟨['B'], [' ']⟩, ⟨['A'], []⟩] ∧ w.state.unread ≠ [] ∧
      (w.step 4 " \x7d\n".toList).toOption.any fun _ => true) (by decide +kernel)
  obtain ⟨hscopes, hunread, hstep⟩ := of_decide_eq_true hmet
  obtain ⟨v, hv, -⟩ := exists_of_toOption_any hstep
  have hwalk : walk (above.map LaidLine.line) 0 _ = .ok w := hw
  obtain ⟨-, -, hopened⟩ := walk_laid hsource rfl hwalk
  exact ⟨_, above, below, x, w, v, hsource, rfl, rfl, hw, hscopes, hv, hopened v hunread hv⟩

end Covenant.Merge
