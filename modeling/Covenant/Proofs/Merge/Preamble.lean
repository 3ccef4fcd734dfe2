import Covenant.Proofs.Merge.Dressing
import Covenant.Proofs.World.Effect

/-!
# Where the imports land

The first sweep notes the first import and the first attribute line by their numbers in the source.
The imports are put at these numbers after the attributes have been inserted, so they need not land
where they were meant to. `insertContracts_preamble_iff` says exactly when they do: the number of
the import still leads in front of the first import, and neither number leads between attributes and
the line they are for.
-/

namespace Covenant.Merge

open Text Contracts Dressing

/-! ## Noted lines -/

/-- What a walk has noted by line `i`: numbers of lines it has met, and not twice the same. -/
structure State.Notes (i : Nat) (s : State) : Prop where
  import_lt : ∀ v, s.importLine = some v → v < i
  attribute_lt : ∀ a, s.attributeLine = some a → a < i
  ne : ∀ v a, s.importLine = some v → s.attributeLine = some a → a ≠ v

theorem State.Notes.congr {i : Nat} {s t : State} (h : s.Notes i)
    (hu : t.importLine = s.importLine) (ha : t.attributeLine = s.attributeLine) :
    t.Notes (i + 1) where
  import_lt v hv := Nat.lt_succ_of_lt (h.import_lt v (hu ▸ hv))
  attribute_lt a hv := Nat.lt_succ_of_lt (h.attribute_lt a (ha ▸ hv))
  ne v a hv hv' := h.ne v a (hu ▸ hv) (ha ▸ hv')

theorem step_notes {w w' : Walk} {i : Nat} {line : Line} (hw : w.state.Notes i)
    (h : w.step i line = .ok w') : w'.state.Notes (i + 1) := by
  obtain ⟨s, hs, rfl⟩ := step_eq_ok_iff.1 h
  obtain ⟨-, -, hu, ha⟩ := ready_frame hs
  have hsn : s.Notes i :=
    ⟨fun v hv => hw.import_lt v (hu ▸ hv), fun a hv => hw.attribute_lt a (ha ▸ hv),
      fun v a hv hv' => hw.ne v a (hu ▸ hv) (ha ▸ hv')⟩
  cases w.action s line with
  | idle | await | leave => exact hsn.congr rfl rfl
  | enter owner =>
    simp only [State.perform, State.enter]
    split <;> exact hsn.congr rfl rfl
  | compare => exact hsn.congr (compare_frame s i line).2.1 (compare_frame s i line).2.2
  | noteImport =>
    refine ⟨fun v hv => ?_, fun a hv => Nat.lt_succ_of_lt (hsn.attribute_lt a hv), ?_⟩
    · obtain rfl := Option.some.inj hv
      exact Nat.lt_succ_self i
    · intro v a hv hv'
      obtain rfl := Option.some.inj hv
      exact Nat.ne_of_lt (hsn.attribute_lt a hv')
  | noteAttribute =>
    refine ⟨fun v hv => Nat.lt_succ_of_lt (hsn.import_lt v hv), fun a hv => ?_, ?_⟩
    · obtain rfl := Option.some.inj hv
      exact Nat.lt_succ_self i
    · intro v a hv hv'
      obtain rfl := Option.some.inj hv'
      exact Nat.ne_of_gt (hsn.import_lt v hv)

/-- The lines that a sweep notes are lines of the source, the attribute before the import. -/
theorem sweep_notes {source contracts : List Line} {s : Sweep}
    (h : sweep source contracts = .ok s) :
    (∀ v, s.importLine = some v → v < source.length) ∧
      (∀ a, s.attributeLine = some a → a < source.length) ∧
      ∀ v a, s.importLine = some v → s.attributeLine = some a → a < v := by
  obtain ⟨-, rfl⟩ | ⟨-, -, w, hw, rfl⟩ := sweep_cases h
  · exact ⟨nofun, nofun, nofun⟩
  have hn := walk_induction (P := fun i w => w.state.Notes i)
    (fun i w w' line => step_notes) hw ⟨nofun, nofun, nofun⟩
  rw [Nat.zero_add] at hn
  have key : ∀ a, w.state.attributeBeforeImport = some a → w.state.attributeLine = some a ∧
      ∀ v, w.state.importLine = some v → a ≤ v := by
    intro a ha
    unfold State.attributeBeforeImport at ha
    split at ha
    · next a' v' ha' hv' =>
      split at ha
      · cases ha
      · next hlt =>
        obtain rfl := Option.some.inj ha
        refine ⟨ha', fun v hv => ?_⟩
        obtain rfl := Option.some.inj (hv'.symm.trans hv)
        omega
    · next hno =>
      refine ⟨ha, fun v hv => ?_⟩
      exact absurd hv (hno a v ha)
  refine ⟨hn.import_lt, fun a ha => hn.attribute_lt a (key a ha).1, fun v a hv ha => ?_⟩
  have hle := (key a ha).2 v hv
  have hne := hn.ne v a hv (key a ha).1
  omega

theorem merge_notes {source contracts : List Line} {m : Merged}
    (h : merge source contracts = .ok m) :
    ∃ s, sweep source contracts = .ok s ∧ m.importLine = s.importLine ∧
      m.attributeLine = s.attributeLine := by
  unfold merge at h
  split at h
  · cases h
  · next s hs =>
    refine ⟨s, hs, ?_⟩
    simp only at h
    split at h
    · obtain rfl := Except.ok.inj h
      exact ⟨rfl, rfl⟩
    · exact resume_induction
        (P := fun m => m.importLine = s.importLine ∧ m.attributeLine = s.attributeLine)
        (fun m start s' hm _ => hm) ⟨rfl, rfl⟩ h

/-! ## The dressing that is written -/

/-- Puts `x` before element `n`, if there is one. -/
def Dressing.insertBefore? (n : Option Nat) (x : Extra) (d : Dressing) : Dressing :=
  match n with
  | some n => insertBefore n x d
  | none => d

/-- The imports of the library that the file is of. -/
def importsOf (core : Bool) : Line := if core then coreImports else outerImports

theorem importsOf_true : importsOf true = coreImports := if_pos rfl

theorem importsOf_false : importsOf false = outerImports := if_neg Bool.false_ne_true

/-- The imports are whole lines, and the first is one. -/
theorem importsOf_spec (core : Bool) :
    isImport (importsOf core) = true ∧ (importsOf core).getLast? = some '\n' ∧
      '\r' ∉ importsOf core := by
  cases core with
  | true =>
    rw [importsOf_true]
    delta coreImports
    simp only [String.toList_append]
    decide +kernel
  | false =>
    rw [importsOf_false]
    delta outerImports
    simp only [String.toList_append]
    decide +kernel

/-- The feature is a line, but no import. -/
theorem featureLine_spec :
    isImport featureLine = false ∧ featureLine.getLast? = some '\n' ∧ '\r' ∉ featureLine := by
  decide +kernel

/-- The dressing of a merge with the imports. -/
def Merged.written (source : List Line) (m : Merged) (core : Bool) : Dressing :=
  if core then (m.dressing source).insertBefore? m.importLine (.preamble coreImports)
  else
    match m.attributeLine with
    | some a =>
      (insertBefore a (.preamble featureLine) (m.dressing source)).insertBefore?
        (m.importLine.map (· + 1)) (.preamble outerImports)
    | none =>
      (m.dressing source).insertBefore? m.importLine (.preamble (featureLine ++ outerImports))

theorem elements_insertBefore? {n : Option Nat} {d : Dressing} (x : Extra)
    (h : ∀ k, n = some k → k < (elements d).length) :
    elements (d.insertBefore? n x) = insertAt? n x.text (elements d) := by
  cases n with
  | none => rfl
  | some k => exact elements_insertBefore x (h k rfl)

/-- The noted lines are among the texts of the merge. -/
theorem notes_lt_elements {source contracts : List Line} {m : Merged}
    (h : merge source contracts = .ok m) :
    (∀ v, m.importLine = some v → v < (elements (m.dressing source)).length) ∧
      (∀ a, m.attributeLine = some a → a < (elements (m.dressing source)).length) ∧
      ∀ v a, m.importLine = some v → m.attributeLine = some a → a < v := by
  obtain ⟨s, hs, hu, ha⟩ := merge_notes h
  obtain ⟨hlu, hla, hlt⟩ := sweep_notes hs
  have hle : source.length ≤ (elements (m.dressing source)).length := by
    obtain ⟨hl, -, he⟩ := merge_dressing h
    rw [he, hl, length_insertAll]
    exact Nat.le_add_right _ _
  rw [hu, ha]
  exact ⟨fun v hv => Nat.lt_of_lt_of_le (hlu v hv) hle,
    fun a hv => Nat.lt_of_lt_of_le (hla a hv) hle, hlt⟩

/-- The written dressing is the merge with its imports. -/
theorem elements_written {source contracts : List Line} {m : Merged}
    (h : merge source contracts = .ok m) (core : Bool) :
    elements (m.written source core) = m.withPreamble core := by
  obtain ⟨hbound, hattr, -⟩ := notes_lt_elements h
  obtain ⟨-, -, he⟩ := merge_dressing h
  unfold Merged.written Merged.withPreamble
  cases core with
  | true => rw [if_pos rfl, if_pos rfl, elements_insertBefore? _ hbound, he, Extra.text_preamble]
  | false =>
    rw [if_neg Bool.false_ne_true, if_neg Bool.false_ne_true]
    cases hm : m.attributeLine with
    | none => simp only [elements_insertBefore? _ hbound, he, Extra.text_preamble]
    | some a =>
      have hf := elements_insertBefore (.preamble featureLine) (hattr a hm)
      simp only
      rw [elements_insertBefore?, hf, he, Extra.text_preamble, Extra.text_preamble]
      · intro k hk
        obtain ⟨v, hv, rfl⟩ := Option.map_eq_some_iff.1 hk
        have := hbound v hv
        rw [hf, length_insertAt]
        omega

/-! ## Places of the imports -/

/-- The gap ends with the imports, perhaps with the feature at their front; texts after them are
empty. -/
def EndsWithImports (core : Bool) (gap : List Extra) : Prop :=
  ∃ g₁ t g₂, gap = g₁ ++ .preamble t :: g₂ ∧
    (t = importsOf core ∨ t = featureLine ++ importsOf core) ∧ ∀ x ∈ g₂, x.text = []

/-- The imports stand immediately before the first import of the source. -/
def Dressing.Lands (core : Bool) (d : Dressing) : Prop :=
  ∃ e, d.find? (fun e => isImport e.line) = some e ∧ EndsWithImports core e.gap

/-- `y` does not come between the attributes `x` and the line they are for. -/
def LeavesTogether (x y : Extra) : Prop := ∀ c t, x = .attributes c → y = .preamble t → c = []

instance : DecidableRel LeavesTogether
  | .attributes c, .preamble t =>
    decidable_of_iff (c = [])
      ⟨fun h _ _ hx _ => Extra.attributes.inj hx ▸ h, fun h => h c t rfl rfl⟩
  | .attributes _, .attributes _ => isTrue fun _ _ _ hy => nomatch hy
  | .preamble _, _ => isTrue fun _ _ hx => nomatch hx

/-- No import or feature stands between attributes and the line they are for. -/
def Dressing.Keeps (d : Dressing) : Prop := ∀ e ∈ d, e.gap.Pairwise LeavesTogether

instance (d : Dressing) : Decidable d.Keeps :=
  inferInstanceAs (Decidable (∀ e ∈ d, e.gap.Pairwise LeavesTogether))

/-- Element `n` is in front of the first import of the source, but for empty texts. -/
def Dressing.BeforeImport : Dressing → Nat → Prop
  | [], _ => False
  | e :: d, n =>
    if n ≤ e.gap.length then isImport e.line = true ∧ ∀ x ∈ e.gap.drop n, x.text = []
    else isImport e.line = false ∧ BeforeImport d (n - (e.gap.length + 1))

/-- Attributes stand in the gap of element `n` before it. -/
def Dressing.Splits : Dressing → Nat → Prop
  | [], _ => False
  | e :: d, n =>
    if n ≤ e.gap.length then ∃ c, .attributes c ∈ e.gap.take n ∧ c ≠ []
    else Splits d (n - (e.gap.length + 1))

/-- None of the texts is the imports. -/
def NoImports (core : Bool) (x : Extra) : Prop :=
  x ≠ .preamble (importsOf core) ∧ x ≠ .preamble (featureLine ++ importsOf core)

theorem append_cons_unique {α : Type} {P : α → Prop} {a b a' b' : List α} {x y : α}
    (h : a ++ x :: b = a' ++ y :: b') (hy : P y) (ha : ∀ z ∈ a, ¬ P z)
    (hb : ∀ z ∈ b, ¬ P z) : a' = a ∧ b' = b := by
  induction a generalizing a' with
  | nil =>
    cases a' with
    | nil => exact ⟨rfl, (List.cons.inj h).2.symm⟩
    | cons z a' =>
      have hbz : b = a' ++ y :: b' := (List.cons.inj h).2
      exact absurd hy (hb y (by rw [hbz]; simp))
  | cons z a ih =>
    cases a' with
    | nil =>
      have hz : z = y := (List.cons.inj h).1
      exact absurd (hz ▸ hy) (ha z List.mem_cons_self)
    | cons z' a' =>
      have hz : z = z' := (List.cons.inj h).1
      obtain ⟨rfl, rfl⟩ := ih (List.cons.inj h).2 fun z hz => ha z (List.mem_cons_of_mem _ hz)
      exact ⟨by rw [hz], rfl⟩

theorem not_endsWithImports {core : Bool} {gap : List Extra} (h : ∀ x ∈ gap, NoImports core x) :
    ¬ EndsWithImports core gap := by
  rintro ⟨g₁, t, g₂, rfl, ht, -⟩
  have hn := h (.preamble t) (by simp)
  rcases ht with rfl | rfl
  · exact hn.1 rfl
  · exact hn.2 rfl

theorem endsWithImports_insertAt {core : Bool} {gap : List Extra} {t : Line} {n : Nat}
    (h : ∀ x ∈ gap, NoImports core x)
    (ht : t = importsOf core ∨ t = featureLine ++ importsOf core) :
    EndsWithImports core (insertAt n (.preamble t) gap) ↔ ∀ x ∈ gap.drop n, x.text = [] := by
  constructor
  · rintro ⟨g₁, t', g₂, hg, ht', hempty⟩
    have hP : ∀ u, (u = importsOf core ∨ u = featureLine ++ importsOf core) →
        ¬ NoImports core (.preamble u) := by
      rintro u (rfl | rfl) hn
      · exact hn.1 rfl
      · exact hn.2 rfl
    obtain ⟨-, rfl⟩ := append_cons_unique (P := fun x => ¬ NoImports core x) hg (hP t' ht')
      (fun z hz hn => hn (h z (List.mem_of_mem_take hz)))
      (fun z hz hn => hn (h z (List.mem_of_mem_drop hz)))
    exact hempty
  · intro hempty
    exact ⟨gap.take n, t, gap.drop n, rfl, ht, hempty⟩

theorem not_lands {core : Bool} {d : Dressing} (h : All (NoImports core) d) : ¬ Lands core d := by
  rintro ⟨e, he, hends⟩
  exact not_endsWithImports (h e (List.mem_of_find?_eq_some he)) hends

/-- Imports land when they are put in front of the first import. -/
theorem lands_insertBefore {core : Bool} {d : Dressing} {t : Line} {n : Nat}
    (h : All (NoImports core) d) (ht : t = importsOf core ∨ t = featureLine ++ importsOf core) :
    Lands core (insertBefore n (.preamble t) d) ↔ BeforeImport d n := by
  induction d generalizing n with
  | nil => simp [Lands, insertBefore, BeforeImport]
  | cons e d ih =>
    have he : ∀ x ∈ e.gap, NoImports core x := h e List.mem_cons_self
    have hd : All (NoImports core) d := fun e' he' => h e' (List.mem_cons_of_mem _ he')
    rw [insertBefore, BeforeImport]
    by_cases hn : n ≤ e.gap.length
    · rw [if_pos hn, if_pos hn]
      cases hi : isImport e.line with
      | true =>
        simp only [Lands, List.find?_cons, hi, Option.some.injEq, exists_eq_left', true_and]
        exact endsWithImports_insertAt he ht
      | false =>
        simp only [Lands, List.find?_cons, hi, Bool.false_eq_true, false_and, iff_false]
        exact not_lands hd
    · rw [if_neg hn, if_neg hn]
      cases hi : isImport e.line with
      | true =>
        simp only [Lands, List.find?_cons, hi, Option.some.injEq, exists_eq_left',
          Bool.true_eq_false, false_and, iff_false]
        exact not_endsWithImports he
      | false =>
        simp only [Lands, List.find?_cons, hi, true_and]
        exact ih hd

theorem keeps_cons {e : DressedLine} {d : Dressing} :
    Keeps (e :: d) ↔ e.gap.Pairwise LeavesTogether ∧ Keeps d := by
  unfold Keeps
  simp only [List.mem_cons, forall_eq_or_imp]

theorem pairwise_leavesTogether_insertAt {gap : List Extra} {t : Line} {n : Nat} :
    (insertAt n (.preamble t) gap).Pairwise LeavesTogether ↔
      gap.Pairwise LeavesTogether ∧ ¬ ∃ c, .attributes c ∈ gap.take n ∧ c ≠ [] := by
  have hgap : gap.Pairwise LeavesTogether ↔ (gap.take n ++ gap.drop n).Pairwise LeavesTogether := by
    rw [List.take_append_drop]
  -- a text that is no attributes parts nothing from what follows it
  have hright : ∀ y ∈ gap.drop n, LeavesTogether (.preamble t) y := fun y _ c u hc => nomatch hc
  have hleft : (∀ x ∈ gap.take n, LeavesTogether x (.preamble t)) ↔
      ¬ ∃ c, .attributes c ∈ gap.take n ∧ c ≠ [] := by
    constructor
    · rintro h ⟨c, hc, hne⟩
      exact hne (h _ hc c t rfl rfl)
    · rintro h x hx c u rfl -
      exact Classical.byContradiction fun hne => h ⟨c, hx, hne⟩
  rw [insertAt, hgap, ← hleft, List.pairwise_append, List.pairwise_append, List.pairwise_cons]
  constructor
  · rintro ⟨h1, ⟨-, h2⟩, h3⟩
    refine ⟨⟨h1, h2, fun x hx y hy => h3 x hx y (List.mem_cons_of_mem _ hy)⟩, fun x hx => ?_⟩
    exact h3 x hx _ List.mem_cons_self
  · rintro ⟨⟨h1, h2, h3⟩, h4⟩
    refine ⟨h1, ⟨hright, h2⟩, fun x hx y hy => ?_⟩
    rcases List.mem_cons.1 hy with rfl | hy
    · exact h4 x hx
    · exact h3 x hx y hy

/-- Putting an import or a feature into a gap keeps attributes at their line when none stand before
it. -/
theorem keeps_insertBefore {d : Dressing} {t : Line} {n : Nat} (h : n < (elements d).length) :
    Keeps (insertBefore n (.preamble t) d) ↔ Keeps d ∧ ¬ Splits d n := by
  induction d generalizing n with
  | nil => simp at h
  | cons e d ih =>
    rw [insertBefore, Splits]
    by_cases hn : n ≤ e.gap.length
    · rw [if_pos hn, if_pos hn, keeps_cons, keeps_cons, pairwise_leavesTogether_insertAt, and_assoc,
        and_assoc, and_comm (a := ¬ _)]
    · have hlt : n - (e.gap.length + 1) < (elements d).length := by
        rw [elements_cons] at h
        simp only [List.length_append, List.length_map, List.length_cons] at h
        omega
      rw [if_neg hn, if_neg hn, keeps_cons, keeps_cons, ih hlt, and_assoc]

/-! A text that is put in earlier moves the later place down by one. -/

theorem beforeImport_insertBefore {d : Dressing} {x : Extra} {a v : Nat} (h : a ≤ v) :
    BeforeImport (insertBefore a x d) (v + 1) ↔ BeforeImport d v := by
  induction d generalizing a v with
  | nil => rfl
  | cons e d ih =>
    rw [insertBefore]
    by_cases ha : a ≤ e.gap.length
    · rw [if_pos ha, BeforeImport, BeforeImport, length_insertAt, drop_insertAt h ha]
      by_cases hv : v ≤ e.gap.length
      · rw [if_pos hv, if_pos (by omega)]
      · rw [if_neg hv, if_neg (by omega), show v + 1 - (e.gap.length + 1 + 1) =
          v - (e.gap.length + 1) by omega]
    · rw [if_neg ha, BeforeImport, BeforeImport, if_neg (by omega), if_neg (by omega),
        show v + 1 - (e.gap.length + 1) = v - (e.gap.length + 1) + 1 by omega,
        ih (by omega)]

theorem splits_insertBefore {d : Dressing} {t : Line} {a v : Nat} (h : a ≤ v) :
    Splits (insertBefore a (.preamble t) d) (v + 1) ↔ Splits d v := by
  induction d generalizing a v with
  | nil => rfl
  | cons e d ih =>
    rw [insertBefore]
    by_cases ha : a ≤ e.gap.length
    · have hmem : ∀ c, .attributes c ∈ (insertAt a (.preamble t) e.gap).take (v + 1) ↔
          Extra.attributes c ∈ e.gap.take v := by
        intro c
        rw [mem_take_insertAt h ha]
        simp
      rw [if_pos ha, Splits, Splits, length_insertAt]
      by_cases hv : v ≤ e.gap.length
      · rw [if_pos hv, if_pos (by omega)]
        simp only [hmem]
      · rw [if_neg hv, if_neg (by omega), show v + 1 - (e.gap.length + 1 + 1) =
          v - (e.gap.length + 1) by omega]
    · rw [if_neg ha, Splits, Splits, if_neg (by omega), if_neg (by omega),
        show v + 1 - (e.gap.length + 1) = v - (e.gap.length + 1) + 1 by omega,
        ih (by omega)]

/-! ## When the imports land -/

/-- Nothing stands before the lines above the first import, and nothing but empty texts before
it. -/
def Dressing.ClearAbove : Dressing → Prop
  | [] => False
  | e :: d => if isImport e.line then ∀ x ∈ e.gap, x.text = [] else e.gap = [] ∧ ClearAbove d

instance instDecidableClearAbove : (d : Dressing) → Decidable (ClearAbove d)
  | [] => isFalse id
  | e :: d =>
    have : Decidable (ClearAbove d) := instDecidableClearAbove d
    inferInstanceAs (Decidable (if isImport e.line then _ else _))

theorem findIdx_le_of_beforeImport {d : Dressing} {n : Nat} (h : BeforeImport d n) :
    (source d).findIdx isImport ≤ n := by
  induction d generalizing n with
  | nil => exact h.elim
  | cons e d ih =>
    show (e.line :: source d).findIdx isImport ≤ n
    rw [BeforeImport] at h
    rw [List.findIdx_cons]
    split at h
    · rw [h.1]
      exact Nat.zero_le n
    · have := ih h.2
      rw [h.1]
      show (source d).findIdx isImport + 1 ≤ n
      omega

/-- The number that the first import has in the source leads in front of it when nothing has been
inserted above. -/
theorem beforeImport_findIdx_iff {d : Dressing} :
    BeforeImport d ((source d).findIdx isImport) ↔ ClearAbove d := by
  induction d with
  | nil => rfl
  | cons e d ih =>
    show BeforeImport (e :: d) ((e.line :: source d).findIdx isImport) ↔ _
    rw [List.findIdx_cons, BeforeImport, ClearAbove]
    cases hi : isImport e.line with
    | true => simp
    | false =>
      simp only [cond_false, Bool.false_eq_true, false_and, true_and, if_false]
      by_cases hg : e.gap = []
      · rw [hg, if_neg (by simp), List.length_nil, Nat.zero_add, Nat.add_sub_cancel, ih]
        simp
      · -- a text above moves the import below its number
        have hpos : 0 < e.gap.length := List.length_pos_iff.2 hg
        simp only [hg, false_and, iff_false]
        intro h
        split at h
        · exact h
        · have := findIdx_le_of_beforeImport h
          omega

theorem not_splits_of_clearAbove {d : Dressing} {n : Nat} (h : ClearAbove d)
    (hn : n ≤ (source d).findIdx isImport) : ¬ Splits d n := by
  induction d generalizing n with
  | nil => exact h.elim
  | cons e d ih =>
    have hn' : n ≤ (e.line :: source d).findIdx isImport := hn
    rw [List.findIdx_cons] at hn'
    rw [ClearAbove] at h
    rw [Splits]
    cases hi : isImport e.line with
    | true =>
      rw [hi] at hn'
      obtain rfl : n = 0 := Nat.le_zero.1 hn'
      simp
    | false =>
      rw [hi] at hn'
      rw [if_neg (by simp [hi])] at h
      obtain ⟨hg, hd⟩ := h
      rw [hg]
      by_cases h0 : n ≤ ([] : List Extra).length
      · rw [if_pos h0]
        simp
      · rw [if_neg h0]
        apply ih hd
        have hle : n ≤ (source d).findIdx isImport + 1 := hn'
        simp only [List.length_nil]
        omega

/-- A merge puts nothing but attributes into the gaps. -/
theorem all_dressing (source : List Line) (m : Merged) :
    All (fun x => ∃ t, x = .attributes t) (m.dressing source) :=
  all_insertEach (all_bare _ _) fun i _ => ⟨i.text, rfl⟩

section Written

variable {source contracts : List Line} {m : Merged}

theorem all_noImports_dressing (source : List Line) (m : Merged) (core : Bool) :
    All (NoImports core) (m.dressing source) := by
  intro e he x hx
  obtain ⟨t, rfl⟩ := all_dressing source m e he x hx
  exact ⟨nofun, nofun⟩

theorem noImports_featureLine (core : Bool) : NoImports core (.preamble featureLine) := by
  have himport := (importsOf_spec core).1
  constructor
  · intro h
    rw [← Extra.preamble.inj h, featureLine_spec.1] at himport
    cases himport
  · intro h
    rw [List.self_eq_append_right.1 (Extra.preamble.inj h)] at himport
    cases himport

theorem keeps_dressing (source : List Line) (m : Merged) : Keeps (m.dressing source) := by
  intro e he
  refine List.pairwise_of_forall_mem_list fun x hx y hy c t _ hy' => ?_
  obtain ⟨u, rfl⟩ := all_dressing source m e he y hy
  cases hy'

theorem lands_keeps_insertBefore? {core : Bool} {d : Dressing} {n : Option Nat} {t : Line}
    (hno : All (NoImports core) d)
    (ht : t = importsOf core ∨ t = featureLine ++ importsOf core)
    (hn : ∀ k, n = some k → k < (elements d).length) :
    (Lands core (d.insertBefore? n (.preamble t)) ∧ Keeps (d.insertBefore? n (.preamble t))) ↔
      Keeps d ∧ ∃ k, n = some k ∧ BeforeImport d k ∧ ¬ Splits d k := by
  cases n with
  | none =>
    constructor
    · intro h
      exact absurd h.1 (not_lands hno)
    · rintro ⟨-, k, hk, -⟩
      cases hk
  | some k =>
    show Lands core (insertBefore k _ d) ∧ Keeps (insertBefore k _ d) ↔ _
    rw [lands_insertBefore hno ht, keeps_insertBefore (hn k rfl)]
    simp only [Option.some.injEq, exists_eq_left']
    exact and_left_comm

/-- The imports land where they are meant to, and part no attributes from their line, exactly when
the noted numbers lead there among the merged lines. -/
theorem written_lands_iff (h : merge source contracts = .ok m) (core : Bool) :
    (Lands core (m.written source core) ∧ Keeps (m.written source core)) ↔
      ∃ v, m.importLine = some v ∧ BeforeImport (m.dressing source) v ∧
        ¬ Splits (m.dressing source) v ∧
        (core = false → ∀ a, m.attributeLine = some a → ¬ Splits (m.dressing source) a) := by
  obtain ⟨hbound, hattr, hlt⟩ := notes_lt_elements h
  have hno := all_noImports_dressing source m core
  have hkeeps := keeps_dressing source m
  unfold Merged.written
  cases core with
  | true =>
    rw [if_pos rfl, lands_keeps_insertBefore? (t := coreImports) hno (.inl importsOf_true.symm)
      hbound]
    simp [hkeeps]
  | false =>
    rw [if_neg Bool.false_ne_true]
    cases hm : m.attributeLine with
    | none =>
      simp only
      rw [lands_keeps_insertBefore? (t := featureLine ++ outerImports) hno
        (.inr (by rw [importsOf_false])) hbound]
      simp [hkeeps]
    | some a =>
      -- the feature moves the place of the imports down by one
      have hal := hattr a hm
      have hav : ∀ v, m.importLine = some v → a ≤ v :=
        fun v hv => Nat.le_of_lt (hlt v a hv hm)
      simp only
      rw [lands_keeps_insertBefore? (t := outerImports)
        (all_insertBefore hno (noImports_featureLine false)) (.inl importsOf_false.symm),
        keeps_insertBefore hal]
      · constructor
        · rintro ⟨⟨-, hsa⟩, k, hk, hb, hsk⟩
          obtain ⟨v, hv, rfl⟩ := Option.map_eq_some_iff.1 hk
          rw [beforeImport_insertBefore (hav v hv)] at hb
          rw [splits_insertBefore (hav v hv)] at hsk
          refine ⟨v, hv, hb, hsk, fun _ a' ha' => ?_⟩
          exact Option.some.inj ha' ▸ hsa
        · rintro ⟨v, hv, hb, hsv, hsa⟩
          refine ⟨⟨hkeeps, hsa trivial a rfl⟩, v + 1, by rw [hv]; rfl, ?_, ?_⟩
          · rwa [beforeImport_insertBefore (hav v hv)]
          · rwa [splits_insertBefore (hav v hv)]
      · intro k hk
        obtain ⟨v, hv, rfl⟩ := Option.map_eq_some_iff.1 hk
        have := hbound v hv
        rw [elements_insertBefore _ hal, length_insertAt]
        omega

/-- Where the first sweep noted the first import of the source, this means that nothing has been
inserted above it. -/
theorem written_lands_iff_clearAbove (h : merge source contracts = .ok m) (core : Bool)
    (hv : m.importLine = some (source.findIdx isImport)) :
    (Lands core (m.written source core) ∧ Keeps (m.written source core)) ↔
      ClearAbove (m.dressing source) := by
  have hfirst : BeforeImport (m.dressing source) (source.findIdx isImport) ↔
      ClearAbove (m.dressing source) := by
    have := beforeImport_findIdx_iff (d := m.dressing source)
    rwa [source_dressing] at this
  rw [written_lands_iff h]
  constructor
  · rintro ⟨v, hv', hb, -⟩
    obtain rfl := Option.some.inj (hv.symm.trans hv')
    exact hfirst.1 hb
  · intro hc
    have hns : ∀ n, n ≤ source.findIdx isImport → ¬ Splits (m.dressing source) n := by
      intro n hn
      exact not_splits_of_clearAbove hc (by rwa [source_dressing])
    refine ⟨_, hv, hfirst.2 hc, hns _ (Nat.le_refl _), fun _ a ha => hns a ?_⟩
    exact Nat.le_of_lt ((notes_lt_elements h).2.2 _ a hv ha)

end Written

/-- When contracts are inserted into a source that has none, the imports stand immediately before
the first import of the source and part no attributes from their line exactly when the numbers
noted by the first sweep lead there among the merged lines. If the first import was noted, that is
when nothing was inserted above it. -/
theorem insertContracts_preamble_iff {w w' : World} {source contracts output : String}
    (h : insertContracts source contracts output w = .ok true w')
    (hnew : isAnnotatedFile source w = .ok false w) :
    ∃ st ct m, w.disk.read source = .ok (.text st) ∧ w.disk.read contracts = .ok (.text ct) ∧
      merge (linesOf st) (linesOf ct) = .ok m ∧
      let d := m.dressing (linesOf st)
      let written := m.written (linesOf st) (isCorePath source)
      w'.disk.read output = .ok (.text (String.ofList (elements written).flatten)) ∧
        ((Lands (isCorePath source) written ∧ Keeps written) ↔
          ∃ v, m.importLine = some v ∧ BeforeImport d v ∧ ¬ Splits d v ∧
            (isCorePath source = false → ∀ a, m.attributeLine = some a → ¬ Splits d a)) ∧
        (m.importLine = some ((linesOf st).findIdx isImport) →
          ((Lands (isCorePath source) written ∧ Keeps written) ↔ ClearAbove d)) := by
  obtain ⟨st, ct, m, annotated, hs, hc, hm, ha, hout⟩ := insertContracts_eq_ok h
  obtain rfl : annotated = false := by
    rw [hnew] at ha
    exact (EStateM.Result.ok.inj ha).1.symm
  refine ⟨st, ct, m, Disk.read_of_load hs, Disk.read_of_load hc, hm, ?_, written_lands_iff hm _,
    written_lands_iff_clearAbove hm _⟩
  obtain ⟨hf, -⟩ | ⟨ls, -, ho, hw⟩ := hout
  · cases hf
  · obtain rfl : m.withPreamble (isCorePath source) = ls := by
      unfold Merged.output? at ho
      split at ho
      · exact Option.some.inj ho
      · cases ho
    rw [elements_written hm]
    exact Disk.read_write_self hw

/-- The imports land in a source that begins with an import. -/
theorem insertContracts_preamble_use_first :
    let st := "use x;\nfn f() \x7b\x7d\n"
    let ct := "_None\n#[requires(true)]\nf\n"
    let w := World.ofFiles [("s.rs", st), ("c.rs", ct)]
    ∃ (w' : World) (m : Merged), insertContracts "s.rs" "c.rs" "o.rs" w = .ok true w' ∧
      isAnnotatedFile "s.rs" w = .ok false w ∧
      w'.disk.read "o.rs" =
        .ok (.text (String.ofList (elements (m.written (linesOf st) false)).flatten)) ∧
      Lands false (m.written (linesOf st) false) ∧ Keeps (m.written (linesOf st) false) := by
  intro st ct w
  obtain ⟨b, w', h, hb⟩ := Effect.exists_of_returns (x := insertContracts "s.rs" "c.rs" "o.rs")
    (w := w) (p := fun b _ => b) (by decide +kernel)
  obtain rfl : b = true := hb
  obtain ⟨b, v, ha, hb⟩ := Effect.exists_of_returns (x := isAnnotatedFile "s.rs") (w := w)
    (p := fun b _ => !b) (by decide +kernel)
  obtain rfl : b = false := by simpa using hb
  obtain rfl := world_of_isAnnotatedFile ha
  obtain ⟨st', ct', m, hs, hc, hm, ho, -, hclear⟩ := insertContracts_preamble_iff h ha
  obtain rfl : st' = st :=
    Content.text.inj (eq_of_toOption_eq_some (by decide +kernel) hs)
  obtain rfl : ct' = ct :=
    Content.text.inj (eq_of_toOption_eq_some (by decide +kernel) hc)
  have hmerge : (merge (linesOf st) (linesOf ct)).toOption.any (fun m =>
      decide (m.importLine = some ((linesOf st).findIdx isImport) ∧
        ClearAbove (m.dressing (linesOf st)))) = true := by decide +kernel
  obtain ⟨m', hm', hp⟩ := exists_of_toOption_any hmerge
  obtain rfl := Except.ok.inj (hm.symm.trans hm')
  obtain ⟨hi, hcl⟩ := of_decide_eq_true hp
  have hcore : isCorePath "s.rs" = false := by decide +kernel
  rw [hcore] at ho hclear
  exact ⟨w', m, h, ha, ho, (hclear hi).2 hcl⟩

/-- A function above the first import moves it down, and the imports come between the attributes
and the function. -/
theorem insertContracts_preamble_parts :
    let st := "fn foo() \x7b\x7d\nuse x;\n"
    let ct := "_None\n#[requires(true)]\nfoo\n\n_None\n#[requires(true)]\nbar\n"
    let w := World.ofFiles [("s.rs", st), ("c.rs", ct)]
    (∃ w', insertContracts "s.rs" "c.rs" "o.rs" w = .ok true w') ∧
      isAnnotatedFile "s.rs" w = .ok false w ∧
      ∃ m, merge (linesOf st) (linesOf ct) = .ok m ∧ m.importLine = some 1 ∧
        ¬ Lands false (m.written (linesOf st) false) ∧
        ¬ Keeps (m.written (linesOf st) false) := by
  intro st ct w
  refine ⟨?_, ?_, ?_⟩
  · obtain ⟨b, w', h, hb⟩ := Effect.exists_of_returns (x := insertContracts "s.rs" "c.rs" "o.rs")
      (w := w) (p := fun b _ => b) (by decide +kernel)
    obtain rfl : b = true := hb
    exact ⟨w', h⟩
  · obtain ⟨b, v, ha, hb⟩ := Effect.exists_of_returns (x := isAnnotatedFile "s.rs") (w := w)
      (p := fun b _ => !b) (by decide +kernel)
    obtain rfl : b = false := by simpa using hb
    obtain rfl := world_of_isAnnotatedFile ha
    exact ha
  · have hmerge : (merge (linesOf st) (linesOf ct)).toOption.any (fun m =>
        decide (m.importLine = some 1 ∧ ¬ Keeps (m.written (linesOf st) false) ∧
          ((m.written (linesOf st) false).find? fun e => isImport e.line) =
            some ⟨[], "use x;\n".toList⟩)) = true := by decide +kernel
    obtain ⟨m, hm, hp⟩ := exists_of_toOption_any hmerge
    obtain ⟨hi, hk, hfind⟩ := of_decide_eq_true hp
    refine ⟨m, hm, hi, ?_, hk⟩
    rintro ⟨e, he, g₁, t, g₂, hg, -⟩
    obtain rfl := Option.some.inj (hfind.symm.trans he)
    simp at hg

end Covenant.Merge
