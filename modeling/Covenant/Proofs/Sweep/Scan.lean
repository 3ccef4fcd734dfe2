import Covenant.Proofs.Contracts.Layout
import Covenant.Proofs.Source.Function
import Covenant.Proofs.Sweep.Placement

/-!
# What a sweep sees of a source

A `Scan` keeps the open items line by line, whatever block is looked for. A block has a site where a
scan meets its function in an item of its owner. A walk waits at each block of a file for its next
site (`walk_awaits`); a block at which it waits to the end has none.
-/

namespace Covenant.Merge

open Text Header Contracts

/-! ## Scans -/

/-- What is known of the items around the next line. -/
structure Scan where
  mode : Mode
  /-- The open items, innermost first. -/
  scopes : List Scope
  isBlank_indent : ∀ s ∈ scopes, ∀ c ∈ s.indent, isBlank c = true

namespace Scan

/-- Nothing is known before the first line. -/
def start : Scan := ⟨.free, [], nofun⟩

/-- The innermost open item, or the file. -/
def scope (σ : Scan) : Scope := σ.scopes.head?.getD Scope.file

/-- The same items with the next line taken for something else. -/
def withMode (σ : Scan) (mode : Mode) : Scan := { σ with mode := mode }

/-- Below the header of an item. -/
def enter (σ : Scan) (owner : Name) (line : Line) : Scan :=
  if endsWith "\x7d\n" line || owner == noOwner then σ.withMode .slot
  else
    { mode := .slot
      scopes := ⟨owner, indentation line⟩ :: σ.scopes
      isBlank_indent := by
        intro s hs c hc
        rcases List.mem_cons.1 hs with rfl | hs
        · exact isBlank_of_mem_indentation hc
        · exact σ.isBlank_indent s hs c hc }

/-- Below the end of an item. -/
def leave (σ : Scan) : Scan where
  mode := .free
  scopes := σ.scopes.tail
  isBlank_indent s hs := σ.isBlank_indent s (List.mem_of_mem_tail hs)

/-- The scan after a line. -/
def next (σ : Scan) (line : Line) : Scan :=
  match σ.mode with
  | .free =>
    if opensScope line then
      match owner? (strip line) with
      | some owner => σ.enter owner line
      | none => σ.withMode .second
    else if σ.scope.closedBy line then σ.leave
    else σ.withMode .free
  | .slot => σ.withMode .free
  | .second => σ.enter (brokenOwner line) line

/-- The line declares the function of the block in an item of its owner. -/
def Fits (σ : Scan) (c : Contract) (line : Line) : Prop :=
  σ.mode ≠ .second ∧ σ.scope.owner = c.owner ∧ declaredName (strip line) = c.name

instance (σ : Scan) (c : Contract) (line : Line) : Decidable (σ.Fits c line) :=
  inferInstanceAs (Decidable (_ ∧ _ ∧ _))

/-- The scan after these lines. -/
def through (σ : Scan) (ls : List Line) : Scan := ls.foldl next σ

theorem isBlank_scope_indent (σ : Scan) : ∀ c ∈ σ.scope.indent, isBlank c = true := by
  intro c hc
  unfold scope at hc
  cases hs : σ.scopes with
  | nil => simp [hs, Scope.file] at hc
  | cons s ss =>
    rw [hs] at hc
    exact σ.isBlank_indent s (by simp [hs]) c hc

@[simp] theorem scope_withMode (σ : Scan) (m : Mode) : (σ.withMode m).scope = σ.scope := rfl

@[simp] theorem mode_withMode (σ : Scan) (m : Mode) : (σ.withMode m).mode = m := rfl

@[simp] theorem withMode_withMode (σ : Scan) (m n : Mode) :
    (σ.withMode m).withMode n = σ.withMode n := rfl

/-- A line that opens and closes nothing leaves the items as they are. -/
theorem next_of_plain {σ : Scan} {line : Line} (hm : σ.mode ≠ .second)
    (ho : opensScope line = false)
    (hc : ∀ scope : Scope, (∀ c ∈ scope.indent, isBlank c = true) → scope.closedBy line = false) :
    σ.next line = σ.withMode .free := by
  unfold next
  cases h : σ.mode with
  | free => simp [ho, hc _ σ.isBlank_scope_indent]
  | slot => rfl
  | second => exact absurd h hm

end Scan

/-- The block has a site at line `k` of these lines. -/
def SiteAt (c : Contract) (σ : Scan) (ls : List Line) (k : Nat) : Prop :=
  ∃ line, ls[k]? = some line ∧ (σ.through (ls.take k)).Fits c line

/-- The block has a site among these lines. -/
def HasSite (c : Contract) (σ : Scan) (ls : List Line) : Prop := ∃ k, SiteAt c σ ls k

section Sites

variable {c : Contract} {σ : Scan} {line : Line} {ls a b : List Line} {k : Nat}

theorem siteAt_zero : SiteAt c σ (line :: ls) 0 ↔ σ.Fits c line := by
  simp [SiteAt, Scan.through]

theorem siteAt_succ : SiteAt c σ (line :: ls) (k + 1) ↔ SiteAt c (σ.next line) ls k := by
  simp [SiteAt, Scan.through]

theorem siteAt_append_left (h : k < a.length) : SiteAt c σ (a ++ b) k ↔ SiteAt c σ a k := by
  rw [SiteAt, SiteAt, List.getElem?_append_left h, List.take_append_of_le_length (Nat.le_of_lt h)]

theorem siteAt_append_right :
    SiteAt c σ (a ++ b) (a.length + k) ↔ SiteAt c (σ.through a) b k := by
  rw [SiteAt, SiteAt, List.getElem?_append_right (Nat.le_add_right _ _), Nat.add_sub_cancel_left,
    List.take_length_add_append, Scan.through, Scan.through, Scan.through, List.foldl_append]

theorem not_hasSite_nil : ¬ HasSite c σ [] := by
  rintro ⟨k, line, h, -⟩
  simp at h

theorem hasSite_cons : HasSite c σ (line :: ls) ↔ σ.Fits c line ∨ HasSite c (σ.next line) ls := by
  constructor
  · rintro ⟨k, hk⟩
    cases k with
    | zero => exact .inl (siteAt_zero.1 hk)
    | succ k => exact .inr ⟨k, siteAt_succ.1 hk⟩
  · rintro (h | ⟨k, hk⟩)
    · exact ⟨0, siteAt_zero.2 h⟩
    · exact ⟨k + 1, siteAt_succ.2 hk⟩

end Sites

/-! ## Walks and scans -/

/-- The walk is where the scan is. -/
structure Walk.Follows (w : Walk) (σ : Scan) : Prop where
  mode_eq : w.mode = σ.mode
  scopes_eq : w.state.scopes = σ.scopes

theorem scope_eq {s : State} {σ : Scan} (h : s.scopes = σ.scopes) : s.scope = σ.scope := by
  rw [State.scope, Scan.scope, h]

theorem enter_follows {s : State} {σ : Scan} (h : s.scopes = σ.scopes) (owner : Name)
    (line : Line) : Walk.Follows ⟨.slot, s.enter owner line⟩ (σ.enter owner line) := by
  unfold State.enter Scan.enter
  split
  · exact ⟨rfl, h⟩
  · exact ⟨rfl, by rw [h]⟩

/-- A walk follows the scan as long as there are blocks to look for. -/
theorem step_follows {w w' : Walk} {σ : Scan} {i : Nat} {line : Line} (hw : w.Follows σ)
    (hidle : w.mode = .free → w.state.unread ≠ []) (h : w.step i line = .ok w') :
    w'.Follows (σ.next line) := by
  obtain ⟨s, hs, rfl⟩ := step_eq_ok_iff.1 h
  have hscopes : s.scopes = σ.scopes := (ready_frame hs).1.trans hw.scopes_eq
  have hcompare : Walk.Follows ⟨.free, s.compare i line⟩ (σ.withMode .free) :=
    ⟨rfl, (compare_frame s i line).1.trans hscopes⟩
  have hfree : ∀ t : State, t.scopes = s.scopes →
      Walk.Follows ⟨.free, t⟩ (σ.withMode .free) := fun t ht => ⟨rfl, ht.trans hscopes⟩
  unfold Walk.action Scan.next
  rw [← hw.mode_eq]
  cases hm : w.mode with
  | slot => exact hcompare
  | second => exact enter_follows hscopes _ _
  | free =>
    have hu : w.state.unread.isEmpty = false := by simpa using hidle hm
    simp only [hu, if_neg Bool.false_ne_true, State.look, scope_eq hscopes]
    cases ho : opensScope line with
    | true =>
      simp only [if_true]
      cases owner? (strip line) with
      | some owner => exact enter_follows hscopes owner line
      | none => exact ⟨rfl, hscopes⟩
    | false =>
      simp only [if_neg Bool.false_ne_true]
      cases hc : σ.scope.closedBy line with
      | true => exact ⟨rfl, congrArg List.tail hscopes⟩
      | false =>
        simp only [if_neg Bool.false_ne_true]
        by_cases hi : (isImport line && s.importLine.isNone) = true
        · rw [if_pos hi]
          exact hfree _ rfl
        · rw [if_neg hi]
          by_cases ha : (isOuterAttribute line && s.attributeLine.isNone) = true
          · rw [if_pos ha]
            exact hfree _ rfl
          · rw [if_neg ha]
            exact hcompare

/-- No contract line is left. -/
def Walk.Idle (w : Walk) : Prop := w.mode = .free ∧ w.state.unread = []

theorem Walk.Idle.step_eq {w : Walk} (h : w.Idle) (i : Nat) (line : Line) :
    w.step i line = .ok w := by
  obtain ⟨mode, s⟩ := w
  obtain ⟨rfl, hu⟩ := h
  exact (step_of_unread_nil hu i line).1

/-- A walk follows the scan, or has nothing to look for any more. -/
theorem walk_follows {ls : List Line} {i : Nat} {w v : Walk} {σ : Scan}
    (hw : w.Follows σ ∨ w.Idle) (h : walk ls i w = .ok v) : v.Follows (σ.through ls) ∨ v.Idle := by
  induction ls generalizing i w σ with
  | nil =>
    obtain rfl := Except.ok.inj h
    exact hw
  | cons line ls ih =>
    obtain ⟨u, hu, hrest⟩ := walk_cons_eq_ok_iff.1 h
    refine ih ?_ hrest
    by_cases hidle : w.Idle
    · rw [hidle.step_eq, Except.ok.injEq] at hu
      exact .inr (hu ▸ hidle)
    · have hfollows : w.Follows σ := hw.resolve_right hidle
      exact .inl (step_follows hfollows (fun hm hunread => hidle ⟨hm, hunread⟩) hu)

/-! ## The blocks that are left -/

/-- The blocks of the file that have not been placed: the first of them has been read or has not. -/
inductive State.Awaits (contracts : List Line) (s : State) : List Contract → Prop
  | unread {cs : List Contract} (hb : s.block = none) (hr : s.unread = contracts.drop s.read)
      (hl : Layout cs s.unread) : s.Awaits contracts cs
  | opened {c : Contract} {cs : List Contract} {start : Nat} {rest : List Line}
      (hb : s.block = some ⟨start, c.owner, c.attributes⟩) (hu : s.unread = c.nameLine :: rest)
      (hr : s.unread = contracts.drop s.read) (hs : contracts.drop start = c.lines ++ rest)
      (ha : After cs rest) : s.Awaits contracts (c :: cs)

section Awaits

variable {contracts : List Line} {s t : State} {c : Contract} {cs : List Contract}

theorem State.Awaits.congr (h : s.Awaits contracts cs) (hb : t.block = s.block)
    (hu : t.unread = s.unread) (hr : t.read = s.read) : t.Awaits contracts cs := by
  cases h with
  | unread hb' hr' hl => exact .unread (hb.trans hb') (by rw [hu, hr, hr']) (hu ▸ hl)
  | opened hb' hu' hr' hs ha =>
    exact .opened (hb.trans hb') (hu.trans hu') (by rw [hu, hr, hr']) hs ha

theorem State.Awaits.unread_ne_nil (h : s.Awaits contracts (c :: cs)) : s.unread ≠ [] := by
  cases h with
  | unread _ _ hl =>
    obtain ⟨rest, he, -⟩ := hl.eq_append
    simp [he, Contract.lines]
  | opened _ hu => simp [hu]

/-- Reading the next block where blocks are left. -/
theorem State.Awaits.withBlock (h : s.Awaits contracts (c :: cs)) :
    ∃ t, s.withBlock = .ok t ∧ t.Awaits contracts (c :: cs) ∧ t.block ≠ none := by
  cases h with
  | unread hb hr hl =>
    obtain ⟨rest, he, ha⟩ := hl.eq_append
    have hu : s.unread = c.header :: (c.attributes ++ c.nameLine :: rest) := by
      rw [he, Contract.lines]
      simp
    have hw : s.wantsBlock = true := by rw [State.wantsBlock, hb]
    refine ⟨_, withBlock_of_header hw hu c.headerOwner?_eq, ?_, by simp⟩
    rw [c.takeWhile_attributes, c.dropWhile_attributes]
    refine .opened rfl rfl ?_ (by rw [← hr, he]) ha
    show c.nameLine :: rest = contracts.drop (s.read + 1 + c.attributes.length)
    rw [Nat.add_assoc, ← List.drop_drop, ← hr, hu, Nat.add_comm, List.drop_succ_cons,
      List.drop_left]
  | @opened _ _ start rest hb hu hr hs ha =>
    refine ⟨s, withBlock_of_not_wantsBlock ?_, .opened hb hu hr hs ha, by simp [hb]⟩
    rw [State.wantsBlock, hb]
    simpa using c.owner_ne_nil

/-- Comparing a line where the first of the blocks that are left has been read. -/
theorem State.Awaits.compare (h : s.Awaits contracts (c :: cs)) (hb : s.block ≠ none) (i : Nat)
    (line : Line) :
    (s.scope.owner = c.owner ∧ declaredName (strip line) = c.name →
      ∃ p, s.placed? i line = some p ∧ p.index = i ∧ p.block.attributes = c.attributes ∧
        (s.compare i line).Awaits contracts cs) ∧
    (¬ (s.scope.owner = c.owner ∧ declaredName (strip line) = c.name) →
      s.placed? i line = none) := by
  cases h with
  | unread hb' => exact absurd hb' hb
  | @opened _ _ start rest hb hu hr hs ha =>
    constructor
    · intro hag
      have hagrees : s.agrees ⟨start, c.owner, c.attributes⟩ c.nameLine line = true := by
        rw [State.agrees, Bool.and_eq_true, beq_iff_eq, beq_iff_eq]
        exact hag
      have hp : s.placed? i line =
          some ⟨⟨start, c.owner, c.attributes⟩, c.nameLine, i, line⟩ := by
        simp [State.placed?, hb, hu, hagrees]
      obtain ⟨rest', -, hu', -, -, -, -, hc⟩ := placed?_eq_some hp
      obtain rfl : rest = rest' := (List.cons.inj (hu.symm.trans hu')).2
      refine ⟨_, hp, rfl, rfl, ?_⟩
      rw [hc]
      refine .unread rfl ?_ ha.dropWhile
      show rest.dropWhile isBlankLine = contracts.drop (s.read + 1 + _)
      rw [← List.drop_drop, ← List.drop_drop, ← hr, hu, List.drop_one, List.tail_cons,
        drop_length_takeWhile]
    · intro hag
      have hagrees : ¬ s.agrees ⟨start, c.owner, c.attributes⟩ c.nameLine line = true := by
        rw [State.agrees, Bool.and_eq_true, beq_iff_eq, beq_iff_eq]
        exact hag
      simp [State.placed?, hb, hu, hagrees]

/-- The header of a function is compared, unless it is taken for the rest of another header. -/
theorem action_of_isFunction {w : Walk} {σ : Scan} {line : Line} (hw : w.Follows σ)
    (hs : s.scopes = σ.scopes) (hm : σ.mode ≠ .second) (hu : w.state.unread ≠ [])
    (hf : isFunction line = true) : w.action s line = .compare := by
  obtain ⟨hclosed, himport, hattr⟩ := plain_of_isFunction hf
  unfold Walk.action
  cases hmode : w.mode with
  | slot => rfl
  | second => exact absurd (hw.mode_eq.symm.trans hmode) hm
  | free =>
    have he : w.state.unread.isEmpty = false := by simpa using hu
    have hc : σ.scope.closedBy line = false := hclosed _ σ.isBlank_scope_indent
    simp [he, State.look, opensScope_of_isFunction hf, scope_eq hs, hc, himport, hattr]

/-- One line where blocks are left: the first of them is placed if the line fits it, and is waited
for otherwise. -/
theorem step_awaits {w : Walk} {σ : Scan} {line : Line} (i : Nat) (hw : w.Follows σ)
    (ha : w.state.Awaits contracts (c :: cs)) (hopen : w.mode ≠ .free → w.state.block ≠ none)
    (hplain : declaredName (strip line) = c.name → isFunction line = true) :
    ∃ w', w.step i line = .ok w' ∧ w'.Follows (σ.next line) ∧
      (w'.mode ≠ .free → w'.state.block ≠ none) ∧
      ((σ.Fits c line ∧ w'.state.Awaits contracts cs ∧
          ∃ p, w.placed? i line = some p ∧ p.index = i ∧ p.block.attributes = c.attributes) ∨
        (¬ σ.Fits c line ∧ w'.state.Awaits contracts (c :: cs) ∧ w.placed? i line = none ∧
          w'.state.block ≠ none)) := by
  obtain ⟨t, ht, hta, htb⟩ : ∃ t, w.ready = .ok t ∧ t.Awaits contracts (c :: cs) ∧
      t.block ≠ none := by
    unfold Walk.ready
    cases hm : w.mode with
    | free => exact ha.withBlock
    | slot => exact ⟨_, rfl, ha, hopen (by simp [hm])⟩
    | second => exact ⟨_, rfl, ha, hopen (by simp [hm])⟩
  have hscopes : t.scopes = σ.scopes := (ready_frame ht).1.trans hw.scopes_eq
  have hstep : w.step i line = .ok (t.perform i line (w.action t line)) :=
    step_eq_ok_iff.2 ⟨t, ht, rfl⟩
  refine ⟨_, hstep, step_follows hw (fun _ => ha.unread_ne_nil) hstep, ?_⟩
  obtain ⟨hplaces, hpasses⟩ := hta.compare htb i line
  rw [scope_eq hscopes] at hplaces hpasses
  by_cases hfits : σ.Fits c line
  · have hact : w.action t line = .compare :=
      action_of_isFunction hw hscopes hfits.1 ha.unread_ne_nil (hplain hfits.2.2)
    obtain ⟨p, hp, hi, hattr, hcs⟩ := hplaces hfits.2
    rw [hact]
    refine ⟨fun h => absurd rfl h, .inl ⟨hfits, hcs, p, ?_, hi, hattr⟩⟩
    rw [Walk.placed?, ht]
    simp [hact, hp]
  · -- the line is not compared, or it differs
    have hnone : w.placed? i line = none := by
      rw [Walk.placed?, ht]
      by_cases hact : w.action t line = .compare
      · have hm : σ.mode ≠ .second := by
          intro hm
          rw [Walk.action, hw.mode_eq, hm] at hact
          cases hact
        simp [hact, hpasses fun h => hfits ⟨hm, h⟩]
      · simp [hact]
    obtain ⟨t', ht', hb, hu, hr, -⟩ := step_of_not_placed? hstep hnone
    obtain rfl := Except.ok.inj (ht.symm.trans ht')
    have hblock : (t.perform i line (w.action t line)).state.block ≠ none := hb ▸ htb
    exact ⟨fun _ => hblock, .inr ⟨hfits, hta.congr hb hu hr, hnone, hblock⟩⟩

/-- The block is placed at one of its sites among these lines, the first of which is number `i`. -/
def PlacedAt (σ : Scan) (ls : List Line) (i : Nat) (c : Contract) (p : Placement) : Prop :=
  ∃ k, p.index = i + k ∧ SiteAt c σ ls k ∧ p.block.attributes = c.attributes

/-- A walk that places the blocks `cs₁` and then waits for the first of `cs₂`. -/
structure Passed (contracts : List Line) (σ : Scan) (ls : List Line) (i : Nat) (w w' : Walk)
    (cs₁ cs₂ : List Contract) : Prop where
  awaits : w'.state.Awaits contracts cs₂
  placed : ∀ c ∈ cs₁, ∃ p ∈ placements ls i w, PlacedAt σ ls i c p
  of_placed : ∀ p ∈ placements ls i w, ∃ c ∈ cs₁, PlacedAt σ ls i c p
  no_site : cs₁ = [] → ∀ c cs, cs₂ = c :: cs → ¬ HasSite c σ ls
  waiting : cs₂ ≠ [] → ∀ l, ls.getLast? = some l →
    (∀ c ∈ cs₁ ++ cs₂, declaredName (strip l) ≠ c.name) → w'.state.block ≠ none

theorem PlacedAt.cons {σ : Scan} {ls : List Line} {line : Line} {i : Nat} {p : Placement}
    (h : PlacedAt (σ.next line) ls (i + 1) c p) : PlacedAt σ (line :: ls) i c p := by
  obtain ⟨k, hi, hs, ha⟩ := h
  exact ⟨k + 1, by omega, siteAt_succ.2 hs, ha⟩

theorem walk_of_awaits_nil {w : Walk} (ls : List Line) (i : Nat)
    (ha : w.state.Awaits contracts []) (hm : w.mode = .free) :
    walk ls i w = .ok w ∧ placements ls i w = [] := by
  have hu : w.state.unread = [] := by
    cases ha with
    | unread _ _ hl => exact hl.eq_nil
  obtain ⟨mode, state⟩ := w
  obtain rfl : mode = .free := hm
  induction ls generalizing i with
  | nil => exact ⟨rfl, rfl⟩
  | cons line ls ih =>
    obtain ⟨hs, hp⟩ := step_of_unread_nil (s := state) hu i line
    obtain ⟨hw, hps⟩ := ih (i + 1)
    refine ⟨walk_cons_eq_ok_iff.2 ⟨_, hs, hw⟩, ?_⟩
    rw [placements_cons hs, hp, hps]
    rfl

section Passed

variable {σ : Scan} {line : Line} {ls : List Line} {i : Nat} {w v w' : Walk}
  {cs₁ cs₂ : List Contract}

/-- A walk that places a block at its first line. -/
theorem Passed.place {p : Placement} (hstep : w.step i line = .ok v) (hfits : σ.Fits c line)
    (hp : w.placed? i line = some p) (hpi : p.index = i)
    (hpa : p.block.attributes = c.attributes)
    (h : Passed contracts (σ.next line) ls (i + 1) v w' cs₁ cs₂) :
    Passed contracts σ (line :: ls) i w w' (c :: cs₁) cs₂ := by
  have hps : placements (line :: ls) i w = p :: placements ls (i + 1) v := by
    rw [placements_cons hstep, hp]
    rfl
  have hpat : PlacedAt σ (line :: ls) i c p := ⟨0, by omega, siteAt_zero.2 hfits, hpa⟩
  refine ⟨h.awaits, fun c' hc' => ?_, fun q hq => ?_, fun hn => ?_, fun hne l hl hlast => ?_⟩
  · rw [hps]
    rcases List.mem_cons.1 hc' with rfl | hc'
    · exact ⟨p, List.mem_cons_self, hpat⟩
    · obtain ⟨q, hq, hqat⟩ := h.placed c' hc'
      exact ⟨q, List.mem_cons_of_mem _ hq, hqat.cons⟩
  · rw [hps] at hq
    rcases List.mem_cons.1 hq with rfl | hq
    · exact ⟨c, List.mem_cons_self, hpat⟩
    · obtain ⟨c', hc', hqat⟩ := h.of_placed q hq
      exact ⟨c', List.mem_cons_of_mem _ hc', hqat.cons⟩
  · cases hn
  · cases ls with
    | nil =>
      obtain rfl : line = l := by simpa using hl
      exact absurd hfits.2.2 (hlast c (by simp))
    | cons l' ls =>
      exact h.waiting hne l (by simpa [List.getLast?_cons] using hl)
        fun c' hc' => hlast c' (List.mem_cons_of_mem _ hc')

/-- A walk that waits for a block at its first line. -/
theorem Passed.wait (hstep : w.step i line = .ok v) (hfits : ¬ σ.Fits c line)
    (hnone : w.placed? i line = none) (hblock : v.state.block ≠ none)
    (hcs : c :: cs = cs₁ ++ cs₂) (hwalk : walk ls (i + 1) v = .ok w')
    (h : Passed contracts (σ.next line) ls (i + 1) v w' cs₁ cs₂) :
    Passed contracts σ (line :: ls) i w w' cs₁ cs₂ := by
  have hps : placements (line :: ls) i w = placements ls (i + 1) v := by
    rw [placements_cons hstep, hnone]
    rfl
  refine ⟨h.awaits, fun c' hc' => ?_, fun q hq => ?_, fun h₁ c' cs' h₂ => ?_,
    fun hne l hl hlast => ?_⟩
  · obtain ⟨q, hq, hqat⟩ := h.placed c' hc'
    exact ⟨q, hps ▸ hq, hqat.cons⟩
  · obtain ⟨c', hc', hqat⟩ := h.of_placed q (hps ▸ hq)
    exact ⟨c', hc', hqat.cons⟩
  · have hc' : c = c' := by
      rw [h₁, h₂] at hcs
      exact (List.cons.inj hcs).1
    rw [hasSite_cons, not_or]
    exact ⟨hc' ▸ hfits, h.no_site h₁ c' cs' h₂⟩
  · cases ls with
    | nil =>
      obtain rfl := Except.ok.inj hwalk
      exact hblock
    | cons l' ls => exact h.waiting hne l (by simpa [List.getLast?_cons] using hl) hlast

end Passed

/-- A walk takes the blocks that are left in order, and waits for each until it comes to a site. -/
theorem walk_awaits {w : Walk} {σ : Scan} (ls : List Line) (i : Nat) (hw : w.Follows σ)
    (ha : w.state.Awaits contracts cs) (hopen : w.mode ≠ .free → w.state.block ≠ none)
    (hplain : ∀ l ∈ ls, ∀ c ∈ cs, declaredName (strip l) = c.name → isFunction l = true) :
    ∃ w' cs₁ cs₂, walk ls i w = .ok w' ∧ cs = cs₁ ++ cs₂ ∧
      Passed contracts σ ls i w w' cs₁ cs₂ := by
  induction ls generalizing i w σ cs with
  | nil =>
    exact ⟨w, [], cs, rfl, rfl,
      { awaits := ha
        placed := fun _ h => absurd h List.not_mem_nil
        of_placed := fun _ h => absurd h List.not_mem_nil
        no_site := fun _ _ _ _ => not_hasSite_nil
        waiting := fun _ _ h => nomatch h }⟩
  | cons line ls ih =>
    have hrest : ∀ l ∈ ls, ∀ c ∈ cs, declaredName (strip l) = c.name → isFunction l = true :=
      fun l hl => hplain l (List.mem_cons_of_mem _ hl)
    cases cs with
    | nil =>
      have hm : w.mode = .free := by
        apply Classical.byContradiction
        intro hm
        cases ha with
        | unread hb => exact hopen hm hb
      obtain ⟨hwalk, hps⟩ := walk_of_awaits_nil (line :: ls) i ha hm
      exact ⟨w, [], [], hwalk, rfl,
        { awaits := ha
          placed := fun _ h => absurd h List.not_mem_nil
          of_placed := fun _ h => absurd (hps ▸ h) List.not_mem_nil
          no_site := fun _ _ _ h => nomatch h
          waiting := fun h => absurd rfl h }⟩
    | cons c cs =>
      obtain ⟨v, hstep, hv, hvopen, hcase⟩ := step_awaits i hw ha hopen
        (hplain line List.mem_cons_self c List.mem_cons_self)
      rcases hcase with ⟨hfits, hva, p, hp, hpi, hpa⟩ | ⟨hfits, hva, hnone, hblock⟩
      · obtain ⟨w', cs₁, cs₂, hwalk, rfl, hpass⟩ := ih (i + 1) hv hva hvopen
          fun l hl c' hc' => hrest l hl c' (List.mem_cons_of_mem _ hc')
        exact ⟨w', c :: cs₁, cs₂, walk_cons_eq_ok_iff.2 ⟨v, hstep, hwalk⟩, rfl,
          hpass.place hstep hfits hp hpi hpa⟩
      · obtain ⟨w', cs₁, cs₂, hwalk, hcs, hpass⟩ := ih (i + 1) hv hva hvopen hrest
        exact ⟨w', cs₁, cs₂, walk_cons_eq_ok_iff.2 ⟨v, hstep, hwalk⟩, hcs,
          hpass.wait hstep hfits hnone hblock hcs hwalk⟩

/-- What a sweep does with a file of blocks: it places the first of them, one after the other, and
is to be taken up at the next one. If it placed none, the first has no site. -/
theorem sweep_awaits {ls : List Line} (hl : Layout cs contracts) (hcs : cs ≠ []) (hne : ls ≠ [])
    (hplain : ∀ l ∈ ls, ∀ c ∈ cs, declaredName (strip l) = c.name → isFunction l = true)
    (hlast : ∀ l, ls.getLast? = some l → ∀ c ∈ cs, declaredName (strip l) ≠ c.name) :
    ∃ s cs₁ cs₂, sweep ls contracts = .ok s ∧ cs = cs₁ ++ cs₂ ∧
      (∀ c ∈ cs₁, ∃ p ∈ placed ls contracts, PlacedAt .start ls 0 c p) ∧
      (∀ p ∈ placed ls contracts, ∃ c ∈ cs₁, PlacedAt .start ls 0 c p) ∧
      (cs₁ = [] → ∀ c cs, cs₂ = c :: cs → ¬ HasSite c .start ls) ∧
      (cs₂ = [] → s.remaining = .nothing) ∧
      (cs₂ ≠ [] → ∃ k, s.remaining = .block k ∧ k < contracts.length ∧
        Layout cs₂ (contracts.drop k) ∧ (k = 0 ↔ cs₁ = [])) := by
  have hstart : (State.start contracts).Awaits contracts cs := .unread rfl rfl hl
  obtain ⟨w, cs₁, cs₂, hwalk, rfl, hpass⟩ := walk_awaits (w := ⟨.free, State.start contracts⟩)
    (σ := .start) ls 0 ⟨rfl, rfl⟩ hstart (fun h => absurd rfl h) hplain
  have hcontracts : contracts ≠ [] := by
    rintro rfl
    exact hcs hl.of_nil
  have hsweep : sweep ls contracts = .ok ⟨w.state.found, w.state.importLine,
      w.state.attributeBeforeImport, w.state.remaining⟩ := by
    rw [sweep, if_neg (by simp [hne, hcontracts]), hwalk]
    rfl
  refine ⟨_, cs₁, cs₂, hsweep, rfl, hpass.placed, hpass.of_placed, hpass.no_site, ?_, ?_⟩
  · rintro rfl
    cases hpass.awaits with
    | unread hb => rw [State.remaining, hb]
  · intro hcs₂
    obtain ⟨l, hl'⟩ : ∃ l, ls.getLast? = some l := ⟨_, List.getLast?_eq_some_getLast hne⟩
    have hblock := hpass.waiting hcs₂ l hl' (hlast l hl')
    cases hpass.awaits with
    | unread hb => exact absurd hb hblock
    | @opened c cs start rest hb hu hr hs ha =>
      have hrem : w.state.remaining = .block start := by rw [State.remaining, hb]
      obtain ⟨hlt, hstop⟩ := stop_le_of_remaining hsweep hrem
      have hlay : Layout (c :: cs) (contracts.drop start) := hs ▸ ha.layout
      refine ⟨start, hrem, hlt, hlay, ?_, ?_⟩
      · intro h0
        refine List.eq_nil_iff_forall_not_mem.2 fun c' hc' => ?_
        obtain ⟨p, hp, -⟩ := hpass.placed c' hc'
        have hle := hstop p hp
        unfold Placement.stop at hle
        omega
      · rintro rfl
        have hlen := hl.length_eq hlay
        rw [List.length_drop] at hlen
        omega

end Awaits

end Covenant.Merge
