import Covenant.Proofs.Merge.Imports

/-!
# Declarations that are added again

A file that is annotated again and again gets two declarations: the feature and the import of the
type invariants. `declarations_added` says which runs add them. The import of the invariants is
added by every run with a section of invariants, whatever the file holds. The feature is added by
every run with new attributes that finds no import of `kani` and has noted an import or an
attribute; after one that has noted an import no other adds it, but those that have noted an
attribute only do not hinder each other.

Both are counted as rows of the file, beside those that the contracts bring themselves.
-/

namespace Covenant.Merge

open Text Contracts Dressing

/-! ## Rows -/

/-- How often a row stands in a text. -/
def rowCount (x : Line) (t : List Char) : Nat := (cells '\n' t).count x

/-- How often a row stands in texts. -/
def rowsIn (x : Line) (ts : List Line) : Nat := (ts.flatMap (cells '\n')).count x

section Rows

variable {x : Line}

theorem rowCount_append_newline (x : Line) (a b : List Char) :
    rowCount x (a ++ '\n' :: b) = rowCount x a + rowCount x b := by
  unfold rowCount cells
  rw [pieces_append_cons (p := (· == '\n')) (beq_self_eq_true '\n'), List.count_append]

theorem rowCount_nil (hx : x ≠ []) : rowCount x [] = 0 :=
  List.count_eq_zero.2 fun h => hx (List.mem_singleton.1 h)

theorem rowCount_append (hx : x ≠ []) {a : List Char} (h : Ended a) (b : List Char) :
    rowCount x (a ++ b) = rowCount x a + rowCount x b := by
  refine apply_append_of_ended (rowCount_append_newline x) ?_ ?_ h b
  · intro n
    rw [rowCount_nil hx, Nat.zero_add]
  · intro n
    rw [rowCount_nil hx, Nat.add_zero]

theorem rowsIn_nil (x : Line) : rowsIn x [] = 0 := rfl

theorem rowsIn_cons (x t : Line) (ts : List Line) :
    rowsIn x (t :: ts) = rowCount x t + rowsIn x ts := by
  rw [rowsIn, List.flatMap_cons, List.count_append]
  rfl

theorem rowsIn_singleton (x t : Line) : rowsIn x [t] = rowCount x t := rowsIn_cons x t []

theorem rowsIn_append (x : Line) (ts us : List Line) :
    rowsIn x (ts ++ us) = rowsIn x ts + rowsIn x us := by
  rw [rowsIn, List.flatMap_append, List.count_append]
  rfl

theorem rowsIn_perm {ts us : List Line} (h : ts.Perm us) : rowsIn x ts = rowsIn x us :=
  (h.flatMap_right (cells '\n')).count_eq x

theorem rowCount_flatten (hx : x ≠ []) {ts : List Line} (h : Whole ts) :
    rowCount x ts.flatten = rowsIn x ts := by
  induction ts with
  | nil => exact rowCount_nil hx
  | cons t ts ih =>
    rw [List.flatten_cons, rowsIn_cons, ← ih h.2]
    by_cases hts : ts = []
    · rw [hts, List.flatten_nil, List.append_nil, rowCount_nil hx, Nat.add_zero]
    · exact rowCount_append hx (h.1 hts) _

theorem rowsIn_lines (hx : x ≠ []) (t : List Char) : rowsIn x (lines t) = rowCount x t := by
  rw [← rowCount_flatten hx (whole_lines t), flatten_lines]

/-- Empty texts have no row. -/
theorem rowsIn_of_empty (hx : x ≠ []) {ts : List Line} (h : ∀ t ∈ ts, t = []) :
    rowsIn x ts = 0 := by
  induction ts with
  | nil => rfl
  | cons t ts ih =>
    obtain ⟨rfl, hts⟩ := List.forall_mem_cons.1 h
    rw [rowsIn_cons, rowCount_nil hx, ih hts]

end Rows

/-! ## Rows of a merge -/

theorem insertAll_perm (ls : List Line) (is : List Insertion) :
    (insertAll ls is).Perm (is.map Insertion.text ++ ls) := by
  induction is generalizing ls with
  | nil => exact .refl _
  | cons i is ih =>
    refine (ih (insertAt i.index i.text ls)).trans ?_
    exact ((insertAt_perm i.index i.text ls).append_left _).trans List.perm_middle

/-- The feature is added where the search found nothing and there is a place for it. -/
def Merged.addsFeature (m : Merged) (core annotated : Bool) : Bool :=
  !core && !annotated && (m.attributeLine.isSome || m.importLine.isSome)

section Merge

variable {x : Line} {m : Merged}

theorem rowsIn_preamble (hx : x ≠ []) (core : Bool) :
    rowsIn x (m.preamble core) = (if m.importLine.isSome then rowCount x (importsOf core) else 0) +
      (if m.addsFeature core false then rowCount x featureLine else 0) := by
  have hboth := rowCount_append hx ended_featureLine outerImports
  unfold Merged.preamble Merged.addsFeature
  cases core with
  | true =>
    rw [importsOf_true]
    cases m.importLine with
    | none => simp [rowsIn_nil]
    | some v => simp [rowsIn_singleton]
  | false =>
    rw [importsOf_false]
    cases m.attributeLine with
    | none =>
      cases m.importLine with
      | none => simp [rowsIn_nil]
      | some v => simp [rowsIn_singleton, hboth, Nat.add_comm]
    | some a =>
      cases m.importLine with
      | none => simp [rowsIn_singleton]
      | some v => simp [rowsIn_cons, rowsIn_nil]

theorem rowsIn_extra (hx : x ≠ []) (core annotated : Bool) :
    rowsIn x (m.extra core annotated) =
      (if m.addsImports annotated then rowCount x (importsOf core) else 0) +
      (if m.addsFeature core annotated then rowCount x featureLine else 0) := by
  cases annotated with
  | true =>
    have hno : m.addsFeature core true = false := by simp [Merged.addsFeature]
    rw [hno]
    rfl
  | false => exact rowsIn_preamble hx core

theorem rowsIn_merge {source contracts : List Line} (h : merge source contracts = .ok m) :
    rowsIn x m.lines = rowsIn x source + rowsIn x (m.inserted.map Insertion.text) := by
  rw [(merge_dressing h).1, rowsIn_perm (insertAll_perm ..), rowsIn_append, Nat.add_comm]

end Merge

/-! ## The two halves of a run -/

/-- How often a row stands in a file. -/
def rowsOf (x : Line) (s : String) : Nat := rowCount x (unifyNewlines s.toList)

/-- What a run makes of the output before it adds type invariants: the source with attributes, or a
copy of it. -/
def prepare (source contracts output : String) : Effect Unit := do
  let attributes ← insertContracts source contracts output
  if !attributes || !(← get).disk.has output then
    Effect.copy source output

section Halves

variable {w v w' : World} {source contracts output : String} {u : Unit}

theorem annotate_eq_ok (h : annotate source contracts output w = .ok u w') :
    ∃ v, prepare source contracts output w = .ok () v ∧
      appendInvariants source contracts output v = .ok u w' := by
  obtain ⟨attributes, w₁, h₁, h⟩ := Effect.bind_eq_ok_iff.1 h
  unfold prepare
  rw [Effect.bind_of_ok h₁, Effect.get_bind_apply]
  rw [insertInvariants, Effect.get_bind_apply] at h
  by_cases hc : (!attributes || !w₁.disk.has output) = true
  · rw [if_pos hc] at h ⊢
    obtain ⟨_, v, hv, h⟩ := Effect.bind_eq_ok_iff.1 h
    exact ⟨v, hv, h⟩
  · rw [if_neg hc] at h ⊢
    exact ⟨w₁, rfl, h⟩

theorem prepare_eq_ok (h : prepare source contracts output w = .ok u v) :
    ∃ st ct m annotated, w.disk.read source = .ok (.text st) ∧
      w.disk.read contracts = .ok (.text ct) ∧ merge (linesOf st) (linesOf ct) = .ok m ∧
      isAnnotatedFile source w = .ok annotated w ∧
      ((m.hasAttributes = false ∧ ∃ d l mode,
          w.disk.write (w.disk.copyTarget source output) (.text st) = .ok d ∧
          v.disk = d.setMode l mode) ∨
        ∃ ls, m.output? (isCorePath source) annotated = some ls ∧
          w.disk.write output (.text (String.ofList ls.flatten)) = .ok v.disk) := by
  obtain ⟨attributes, w₁, h₁, h₂⟩ := Effect.bind_eq_ok_iff.1 h
  rw [Effect.get_bind_apply] at h₂
  obtain ⟨st, ct, m, annotated, hst, hct, hm, ha, ⟨rfl, hno, rfl⟩ | ⟨ls, rfl, hls, hw⟩⟩ :=
    insertContracts_eq_ok h₁
  · obtain ⟨c, d, l, mode, hc, hw⟩ := Effect.copy_eq_ok h₂
    obtain rfl := Except.ok.inj (hst.symm.trans hc)
    exact ⟨st, ct, m, annotated, Disk.read_of_load hst, Disk.read_of_load hct, hm, ha,
      .inl ⟨hno, d, l, mode, hw⟩⟩
  · -- the output is there, so nothing is copied
    rw [Disk.has_of_read (Disk.read_write_self hw)] at h₂
    obtain ⟨-, rfl⟩ := Effect.pure_eq_ok_iff.1 h₂
    exact ⟨st, ct, m, annotated, Disk.read_of_load hst, Disk.read_of_load hct, hm, ha,
      .inr ⟨ls, hls, hw⟩⟩

/-- A directory at the path of the output is still there after the first half. -/
theorem prepare_directory (h : prepare source contracts output w = .ok u v)
    (hdir : w.disk.hasDirectory output = true) :
    ∃ l, v.disk.locate output = .ok l ∧ v.disk.node? l = some .directory := by
  obtain ⟨st, ct, m, annotated, -, -, -, -, ⟨-, d, l, mode, hw, hv⟩ | ⟨ls, -, hw⟩⟩ :=
    prepare_eq_ok h
  · rw [hv, Disk.locate_setMode, Disk.node?_setMode]
    exact Disk.directory_of_write hw hdir
  · exact Disk.directory_of_write hw hdir

/-- What the first half does to the rows of the source, and to what the search finds in it. -/
theorem prepare_output (h : prepare source contracts output w = .ok u v)
    (hdir : w.disk.hasDirectory output = false) :
    ∃ st ct m annotated raw, w.disk.read source = .ok (.text st) ∧
      w.disk.read contracts = .ok (.text ct) ∧ merge (linesOf st) (linesOf ct) = .ok m ∧
      isAnnotatedFile source w = .ok annotated w ∧ v.disk.read output = .ok (.text raw) ∧
      (∀ x, x ≠ [] → rowsOf x raw = rowsOf x st + rowsIn x (m.inserted.map Insertion.text) +
        if m.hasAttributes then rowsIn x (m.extra (isCorePath source) annotated) else 0) ∧
      ((Imported (.text st) ∨ m.hasAttributes = true ∧ m.addsImports annotated = true) →
        Imported (.text raw)) := by
  obtain ⟨st, ct, m, annotated, hst, hct, hm, ha, ⟨hno, d, l, mode, hw, hv⟩ | ⟨ls, hls, hw⟩⟩ :=
    prepare_eq_ok h
  · rw [Disk.copyTarget, hdir, if_neg Bool.false_ne_true] at hw
    have hraw : v.disk.read output = .ok (.text st) := by
      rw [hv, Disk.read_setMode]
      exact Disk.read_write_self hw
    refine ⟨st, ct, m, annotated, st, hst, hct, hm, ha, hraw, ?_, ?_⟩
    · intro x hx
      have hempty : ∀ t ∈ m.inserted.map Insertion.text, t = [] := by
        intro t ht
        obtain ⟨i, hi, rfl⟩ := List.mem_map.1 ht
        simpa using List.any_eq_false.1 hno i hi
      rw [hno, rowsIn_of_empty hx hempty]
      rfl
    · rintro (hyes | ⟨hyes, -⟩)
      · exact hyes
      · cases hno.symm.trans hyes
  · obtain ⟨hcr, hkeep, -, hadded⟩ := output_imports hm hls
    obtain ⟨hhas, hwhole, hperm⟩ := output_perm hm (whole_merge (lined_lines _)
      (fun l => not_mem_linesOf) (fun l => not_mem_linesOf) hm (lined_lines _)) hls
    have hlist := String.toList_ofList (l := ls.flatten)
    refine ⟨st, ct, m, annotated, _, hst, hct, hm, ha, Disk.read_write_self hw, ?_, ?_⟩
    · intro x hx
      rw [rowsOf, hlist, unifyNewlines_of_not_mem hcr, rowCount_flatten hx hwhole,
        rowsIn_perm hperm, rowsIn_append, rowsIn_merge hm, linesOf, rowsIn_lines hx, hhas,
        if_pos rfl, Nat.add_comm]
      rfl
    · intro hyes
      refine ⟨_, rfl, by rwa [hlist], ?_⟩
      rw [hlist]
      rcases hyes with ⟨s, hs, hr, hk⟩ | ⟨-, hadds⟩
      · obtain rfl := Content.text.inj hs
        exact hkeep hr hk
      · exact hadded hadds

/-- What the import of the invariants does to whole lines. -/
theorem importInvariants_perm (core : Bool) {ls : List Line} (h : Whole ls) (hne : ls ≠ []) :
    Whole (importInvariants core ls) ∧
      (importInvariants core ls).Perm (invariantImport core :: ls) := by
  refine ⟨whole_insertAt h (ended_of_getLast? (invariantImport_spec core).2.1) ?_,
    insertAt_perm ..⟩
  cases hi : ls.findIdx? isImport with
  | none => exact List.length_pos_iff.2 hne
  | some n => exact (List.findIdx?_eq_some_iff_getElem.1 hi).1

/-- Rows of a text with appended invariants. -/
theorem rowCount_append_appendix {x : Line} (hx : x ≠ []) (t : List Char) {ls : List Line}
    (hcr : ∀ l ∈ ls, '\r' ∉ l) (hls : Whole ls) :
    rowCount x (unifyNewlines (t ++ appendix ls)) =
      rowCount x (unifyNewlines t) + rowsIn x ls := by
  have hlast : rowCount x (ls.flatten ++ ['\n']) = rowsIn x ls := by
    rw [rowCount_append_newline, rowCount_nil hx, Nat.add_zero, rowCount_flatten hx hls]
  rw [unifyNewlines_append_appendix hcr, List.append_assoc]
  unfold seam
  by_cases hr : t.getLast? = some '\r'
  · rw [if_pos hr, List.nil_append,
      rowCount_append hx (ended_of_getLast? (getLast?_unifyNewlines hr)), hlast]
  · rw [if_neg hr, List.singleton_append, rowCount_append_newline, hlast]

/-- What the second half does to the rows of the output, and to what the search finds in it. -/
theorem appendInvariants_rows {raw ct : String} (hout : v.disk.read output = .ok (.text raw))
    (hct : v.disk.read contracts = .ok (.text ct))
    (h : appendInvariants source contracts output v = .ok u w') :
    ∃ t, w'.disk.read output = .ok (.text t) ∧
      (∀ x, x ≠ [] → rowsOf x t = rowsOf x raw + rowsIn x (invariantSection (linesOf ct)) +
        if (invariantSection (linesOf ct)).isEmpty then 0
        else rowCount x (invariantImport (isCorePath source))) ∧
      (Imported (.text raw) → Imported (.text t)) := by
  obtain ⟨t, ht, ⟨hsec, rfl⟩ | ⟨hsec, rfl⟩⟩ := appendInvariants_output hout hct h
  · refine ⟨t, ht, fun x _ => ?_, id⟩
    rw [hsec]
    rfl
  have hcr : ∀ l ∈ invariantSection (linesOf ct), '\r' ∉ l := fun l hl =>
    not_mem_linesOf ((invariantSection_suffix _).subset hl)
  have hwhole : Whole (invariantSection (linesOf ct)) :=
    whole_of_settled (settled_of_lined ((lined_lines _).of_suffix (invariantSection_suffix _)))
  generalize invariantSection (linesOf ct) = sec at *
  have hempty : sec.isEmpty = false := by simpa using hsec
  generalize htext : unifyNewlines (raw.toList ++ appendix sec) = text at *
  have hne : lines text ≠ [] := by
    rw [Ne, lines_eq_nil_iff, ← htext, unifyNewlines_append_appendix hcr]
    simp
  obtain ⟨hall, hperm⟩ := importInvariants_perm (isCorePath source) (whole_lines text) hne
  have hno : '\r' ∉ (importInvariants (isCorePath source) (lines text)).flatten := by
    refine not_mem_importInvariants fun l hl hm => ?_
    apply not_mem_unifyNewlines (raw.toList ++ appendix sec)
    rw [htext, ← flatten_lines text]
    exact List.mem_flatten.2 ⟨l, hl, hm⟩
  refine ⟨_, ht, fun x hx => ?_, fun hyes => ?_⟩
  · rw [rowsOf, String.toList_ofList, unifyNewlines_of_not_mem hno, rowCount_flatten hx hall,
      rowsIn_perm hperm, rowsIn_cons, rowsIn_lines hx, ← htext,
      rowCount_append_appendix hx _ hcr hwhole, hempty, if_neg Bool.false_ne_true, Nat.add_comm]
    rfl
  · obtain ⟨s, hs, hr, hk⟩ := hyes
    obtain rfl := Content.text.inj hs
    have hseam : seam raw.toList = ['\n'] :=
      if_neg fun hl => hr (List.mem_of_getLast? hl)
    refine ⟨_, rfl, by rwa [String.toList_ofList], ?_⟩
    rw [String.toList_ofList, showsKani_flatten hall, hperm.any_eq, List.any_cons,
      ← showsKani_flatten (whole_lines text), flatten_lines, ← htext,
      unifyNewlines_append_appendix hcr, unifyNewlines_of_not_mem hr, hseam, List.append_assoc,
      List.singleton_append, showsKani_append_newline, hk, Bool.true_or, Bool.or_true]

end Halves

/-! ## Runs -/

/-- The row that turns the feature on. -/
def featureRow : Line := "#![feature(ub_checks)]".toList

/-- The row that imports the type invariants. -/
def invariantRow : Line := "use core::ub_checks::Invariant;".toList

theorem rowCount_featureLine :
    rowCount featureRow featureLine = 1 ∧ rowCount invariantRow featureLine = 0 := by
  decide +kernel

theorem rowCount_invariantImport (core : Bool) :
    rowCount featureRow (invariantImport core) = 0 ∧
      rowCount invariantRow (invariantImport core) = if core then 0 else 1 := by
  cases core <;> decide +kernel

/-- The imports have neither row. -/
theorem rowCount_importsOf (core : Bool) :
    rowCount featureRow (importsOf core) = 0 ∧ rowCount invariantRow (importsOf core) = 0 := by
  cases core with
  | true =>
    rw [importsOf_true]
    delta coreImports
    simp only [String.toList_append]
    decide +kernel
  | false =>
    rw [importsOf_false]
    delta outerImports
    simp only [String.toList_append]
    decide +kernel

/-- What a run has found out when it writes. -/
structure Account where
  /-- Whether the source is of the core library. -/
  core : Bool
  /-- Whether the search found something in the source. -/
  annotated : Bool
  merged : Merged
  /-- The section of type invariants. -/
  invariants : List Line

namespace Account

/-- The run adds the feature. -/
def declaresFeature (a : Account) : Bool :=
  a.merged.hasAttributes && a.merged.addsFeature a.core a.annotated

/-- The run adds the import of the type invariants, outside the core library. -/
def declaresInvariant (a : Account) : Bool := !a.core && !a.invariants.isEmpty

/-- What comes from the contracts. -/
def brought (a : Account) : List Line := a.merged.inserted.map Insertion.text ++ a.invariants

end Account

namespace Link

/-- The account of the run. Its section is that of the contracts as they are when the output has
been written for the first time. -/
structure HasAccount (k : Link) (a : Account) : Prop where
  core : a.core = isCorePath k.source
  annotated : isAnnotatedFile k.source k.world = .ok a.annotated k.world
  merged : ∃ st ct, k.world.disk.read k.source = .ok (.text st) ∧
    k.world.disk.read k.contracts = .ok (.text ct) ∧
    merge (linesOf st) (linesOf ct) = .ok a.merged
  invariants : ∃ v ct, prepare k.source k.contracts k.output k.world = .ok () v ∧
    v.disk.read k.contracts = .ok (.text ct) ∧ a.invariants = invariantSection (linesOf ct)

/-- The run annotates the first content and makes the second of it. -/
structure Annotates (k : Link) (c c' : Content) (w' : World) : Prop where
  source : k.world.disk.read k.source = .ok c
  run : annotate k.source k.contracts k.output k.world = .ok () w'
  output : w'.disk.read k.output = .ok c'

end Link

theorem Link.HasAccount.unique {k : Link} {a a' : Account} (h : k.HasAccount a)
    (h' : k.HasAccount a') : a = a' := by
  obtain ⟨core, annotated, m, sec⟩ := a
  obtain ⟨core', annotated', m', sec'⟩ := a'
  obtain ⟨hcore, ha, ⟨st, ct, hst, hct, hm⟩, v, ct₂, hv, hct₂, hsec⟩ := h
  obtain ⟨hcore', ha', ⟨st', ct', hst', hct', hm'⟩, v', ct₂', hv', hct₂', hsec'⟩ := h'
  obtain rfl : core = core' := hcore.trans hcore'.symm
  obtain ⟨rfl, -⟩ := EStateM.Result.ok.inj (ha.symm.trans ha')
  obtain rfl := Content.text.inj (Except.ok.inj (hst.symm.trans hst'))
  obtain rfl := Content.text.inj (Except.ok.inj (hct.symm.trans hct'))
  obtain rfl : m = m' := Except.ok.inj (hm.symm.trans hm')
  obtain ⟨-, rfl⟩ := EStateM.Result.ok.inj (hv.symm.trans hv')
  obtain rfl := Content.text.inj (Except.ok.inj (hct₂.symm.trans hct₂'))
  obtain rfl : sec = sec' := hsec.trans hsec'.symm
  rfl

section Runs

variable {k : Link} {c c' : Content} {w' : World} {a : Account}

/-- What the output of a run holds: the rows of the source, those that the contracts bring, and what
the run adds. -/
theorem Link.Annotates.spec (h : k.Annotates c c' w') :
    ∃ a s t, k.HasAccount a ∧ c = .text s ∧ c' = .text t ∧
      (∀ x, x ≠ [] → rowsOf x t = rowsOf x s + rowsIn x a.brought +
        (if a.merged.hasAttributes then rowsIn x (a.merged.extra a.core a.annotated) else 0) +
        (if a.invariants.isEmpty then 0 else rowCount x (invariantImport a.core))) ∧
      ((Imported c ∨ a.merged.hasAttributes = true ∧ a.merged.addsImports a.annotated = true) →
        Imported c') := by
  obtain ⟨v, hv, happend⟩ := annotate_eq_ok h.run
  obtain ⟨ct₂, hload₂, hcases⟩ := appendInvariants_eq_ok happend
  have hct₂ := Disk.read_of_load hload₂
  -- what is read at the end is no directory
  have hdir : k.world.disk.hasDirectory k.output = false := by
    rw [Bool.eq_false_iff]
    intro hd
    obtain ⟨l, hl, hl'⟩ := prepare_directory hv hd
    obtain ⟨hread, hno⟩ := Disk.no_file_of_directory hl hl'
    rcases hcases with ⟨-, rfl⟩ | ⟨-, d, t, happ, -⟩
    · exact hread _ h.output
    · exact hno _ _ happ
  obtain ⟨st, ct, m, annotated, raw, hst, hct, hm, ha, hraw, hrows, hkeep⟩ := prepare_output hv hdir
  obtain ⟨t, ht, hrows', hkeep'⟩ := appendInvariants_rows hraw hct₂ happend
  obtain rfl := Except.ok.inj (hst.symm.trans h.source)
  obtain rfl := Except.ok.inj (ht.symm.trans h.output)
  refine ⟨⟨isCorePath k.source, annotated, m, invariantSection (linesOf ct₂)⟩, st, t,
    ⟨rfl, ha, ⟨st, ct, hst, hct, hm⟩, v, ct₂, hv, hct₂, rfl⟩, rfl, rfl, fun x hx => ?_,
    fun hyes => hkeep' (hkeep hyes)⟩
  rw [hrows' x hx, hrows x hx, Account.brought, rowsIn_append]
  dsimp only
  omega

/-- A run adds each of the two declarations once or not at all. -/
theorem Link.Annotates.declares (h : k.Annotates c c' w') :
    ∃ a s t, k.HasAccount a ∧ c = .text s ∧ c' = .text t ∧
      rowsOf featureRow t = rowsOf featureRow s + rowsIn featureRow a.brought +
        (if a.declaresFeature then 1 else 0) ∧
      rowsOf invariantRow t = rowsOf invariantRow s + rowsIn invariantRow a.brought +
        (if a.declaresInvariant then 1 else 0) := by
  obtain ⟨a, s, t, ha, hs, ht, hrows, -⟩ := h.spec
  refine ⟨a, s, t, ha, hs, ht, ?_, ?_⟩
  · have hne : featureRow ≠ [] := by decide
    rw [hrows _ hne, rowsIn_extra hne, rowCount_featureLine.1, (rowCount_importsOf a.core).1,
      (rowCount_invariantImport a.core).1, Account.declaresFeature]
    cases a.merged.hasAttributes <;> simp
  · have hne : invariantRow ≠ [] := by decide
    rw [hrows _ hne, rowsIn_extra hne, rowCount_featureLine.2, (rowCount_importsOf a.core).2,
      (rowCount_invariantImport a.core).2, Account.declaresInvariant]
    cases a.core <;> cases a.invariants.isEmpty <;> simp

theorem Link.Annotates.mayRead (h : k.Annotates c c' w') :
    k.world.disk.mayRead k.source = true := by
  obtain ⟨attributes, v, hinsert, -⟩ := Effect.bind_eq_ok_iff.1 h.run
  obtain ⟨st, ct, m, annotated, hst, -⟩ := insertContracts_eq_ok hinsert
  exact (Disk.load_eq_ok_iff.1 hst).2

/-- A run on a file with the imports leaves them, and does not add the feature. -/
theorem Link.Annotates.of_imported (h : k.Annotates c c' w') (hc : Imported c) :
    Imported c' ∧ ∀ a, k.HasAccount a → Path.looksLikeOption k.source = false →
      a.declaresFeature = false := by
  obtain ⟨_, _, _, -, -, -, -, hkeep⟩ := h.spec
  refine ⟨hkeep (.inl hc), fun a ha hpath => ?_⟩
  obtain ⟨s, rfl, -, hk⟩ := hc
  have hann := ha.annotated
  rw [isAnnotatedFile_of_read hpath h.source, isAnnotated_searched, hk, h.mayRead] at hann
  obtain ⟨hyes, -⟩ := EStateM.Result.ok.inj hann
  rw [Account.declaresFeature, Merged.addsFeature, ← hyes]
  simp

/-- A run that adds the feature and has noted an import leaves the imports. -/
theorem Link.Annotates.imported_of_declares (h : k.Annotates c c' w') (ha : k.HasAccount a)
    (hd : a.declaresFeature = true) (hi : a.merged.importLine.isSome = true) : Imported c' := by
  obtain ⟨a', _, _, ha', -, -, -, hkeep⟩ := h.spec
  obtain rfl := ha.unique ha'
  rw [Account.declaresFeature, Merged.addsFeature, Bool.and_eq_true, Bool.and_eq_true,
    Bool.and_eq_true, Bool.not_eq_true'] at hd
  refine hkeep (.inr ⟨hd.1, ?_⟩)
  rw [Merged.addsImports, Bool.and_eq_true]
  exact ⟨hd.2.1.2, hi⟩

end Runs

/-! ## Chains of runs -/

/-- Runs that start from a content, each with the output of the one before as its source. -/
inductive Annotations : Content → List Link → Prop
  | done (c : Content) : Annotations c []
  | run {k : Link} {ks : List Link} {c c' : Content} {w' : World} (h : k.Annotates c c' w')
      (rest : Annotations c' ks) : Annotations c (k :: ks)

/-- Once the imports are in, no run adds the feature. -/
theorem Annotations.of_imported {c : Content} {ks : List Link} (h : Annotations c ks)
    (hc : Imported c) : ∀ k ∈ ks, ∀ a, k.HasAccount a → Path.looksLikeOption k.source = false →
      a.declaresFeature = false := by
  induction h with
  | done c => exact fun _ hk => absurd hk List.not_mem_nil
  | run h rest ih =>
    obtain ⟨hc', hno⟩ := h.of_imported hc
    exact List.forall_mem_cons.2 ⟨hno, ih hc'⟩

/-- Every run of a chain adds the import of the type invariants if it has a section of them, and the
feature if it has new attributes, finds no import of `kani` and has noted an import or an attribute;
each once. After a run that adds the feature and has noted an import no run adds it. -/
theorem declarations_added {c : Content} {ks : List Link} (h : Annotations c ks) :
    (∀ k ∈ ks, ∃ a s t w', k.HasAccount a ∧ k.Annotates (.text s) (.text t) w' ∧
      rowsOf featureRow t = rowsOf featureRow s + rowsIn featureRow a.brought +
        (if a.declaresFeature then 1 else 0) ∧
      rowsOf invariantRow t = rowsOf invariantRow s + rowsIn invariantRow a.brought +
        (if a.declaresInvariant then 1 else 0)) ∧
    ks.Pairwise fun k k' => ∀ a a', k.HasAccount a → k'.HasAccount a' →
      a.declaresFeature = true → a.merged.importLine.isSome = true →
      Path.looksLikeOption k'.source = false → a'.declaresFeature = false := by
  induction h with
  | done c => exact ⟨fun _ hk => absurd hk List.not_mem_nil, .nil⟩
  | run h rest ih =>
    obtain ⟨hrows, hpair⟩ := ih
    refine ⟨List.forall_mem_cons.2 ⟨?_, hrows⟩, .cons (fun k' hk' a a' ha ha' hd hi => ?_) hpair⟩
    · obtain ⟨a, s, t, ha, rfl, rfl, hfeature, hinvariant⟩ := h.declares
      exact ⟨a, s, t, _, ha, h, hfeature, hinvariant⟩
    · exact rest.of_imported (h.imported_of_declares ha hd hi) k' hk' a' ha'

/-- Two runs, of which the first adds the feature beside an import. -/
theorem declarations_added_beside_import :
    let st := "use x;\nfn f() \x7b\x7d\n"
    let ct := "_None\n#[r]\nf\n"
    let w := World.ofFiles [("s.rs", st), ("c.rs", ct)]
    let k : Link := ⟨"s.rs", "c.rs", "t.rs", w⟩
    ∃ w₁, let k' : Link := ⟨"t.rs", "c.rs", "u.rs", w₁⟩
      Annotations (.text st) [k, k'] ∧ ∃ a a', k.HasAccount a ∧ k'.HasAccount a' ∧
        a.declaresFeature = true ∧ a.merged.importLine.isSome = true ∧
        a'.declaresFeature = false := by
  intro st ct w k
  obtain ⟨_, w₁, hrun, hp⟩ := Effect.exists_of_returns (x := annotate "s.rs" "c.rs" "t.rs") (w := w)
    (p := fun _ w₁ => (w₁.disk.read "t.rs").toOption.any (fun _ => true) &&
      (annotate "t.rs" "c.rs" "u.rs").returns w₁ fun _ w₂ =>
        (w₂.disk.read "u.rs").toOption.any fun _ => true) (by decide +kernel)
  obtain ⟨ht, hp⟩ := Bool.and_eq_true_iff.1 hp
  obtain ⟨_, w₂, hrun', hu⟩ := Effect.exists_of_returns hp
  obtain ⟨c₁, ht, -⟩ := exists_of_toOption_any ht
  obtain ⟨c₂, hu, -⟩ := exists_of_toOption_any hu
  have hst : w.disk.read "s.rs" = .ok (.text st) := eq_ok_of_toOption (by decide +kernel)
  have hct : w.disk.read "c.rs" = .ok (.text ct) := eq_ok_of_toOption (by decide +kernel)
  obtain ⟨m, hm, hnotes⟩ := exists_of_toOption_any (x := merge (linesOf st) (linesOf ct))
    (p := fun m => m.hasAttributes && m.importLine.isSome) (by decide +kernel)
  obtain ⟨hattr, himport⟩ := Bool.and_eq_true_iff.1 hnotes
  have hchain : Annotations (.text st) [k, ⟨"t.rs", "c.rs", "u.rs", w₁⟩] :=
    .run ⟨hst, hrun, ht⟩ (.run ⟨ht, hrun', hu⟩ (.done c₂))
  obtain ⟨hruns, hpair⟩ := declarations_added hchain
  obtain ⟨⟨a, -, -, -, ha, -⟩, a', -, -, -, ha', -⟩ :=
    (List.forall_mem_cons.1 hruns).imp_right fun h => List.forall_mem_singleton.1 h
  have hmerged : a.merged = m := by
    obtain ⟨st', ct', hst', hct', hm'⟩ := ha.merged
    obtain rfl := Content.text.inj (Except.ok.inj (hst.symm.trans hst'))
    obtain rfl := Content.text.inj (Except.ok.inj (hct.symm.trans hct'))
    exact Except.ok.inj (hm'.symm.trans hm)
  have hcore : a.core = false := ha.core.trans (by decide +kernel)
  have hannotated : a.annotated = false := by
    have hpath : Path.looksLikeOption "s.rs" = false := by decide +kernel
    have hkani : showsKani st.toList = false := by decide +kernel
    have hann := ha.annotated
    rw [isAnnotatedFile_of_read hpath hst, isAnnotated_searched, hkani, Bool.and_false] at hann
    exact (EStateM.Result.ok.inj hann).1.symm
  have hfeature : a.declaresFeature = true := by
    rw [Account.declaresFeature, Merged.addsFeature, hmerged, hcore, hannotated, hattr, himport,
      Bool.or_true]
    rfl
  have himport : a.merged.importLine.isSome = true := by rw [hmerged, himport]
  have hplain : Path.looksLikeOption "t.rs" = false := by decide +kernel
  exact ⟨w₁, hchain, a, a', ha, ha', hfeature, himport,
    List.rel_of_pairwise_cons hpair List.mem_cons_self a a' ha ha' hfeature himport hplain⟩

/-- How often a row stands in the text file at a path. -/
def rowsAt (x : Line) (w : World) (path : String) : Nat :=
  match w.disk.read path with
  | .ok (.text s) => rowsOf x s
  | _ => 0

/-- Two runs that both add a row to a file without it. -/
def AddedTwice (x : Line) (contracts contracts' : String) (w : World) : Prop :=
  ∃ w₁ w₂, annotate "s.rs" contracts "t.rs" w = .ok () w₁ ∧
    annotate "t.rs" contracts' "u.rs" w₁ = .ok () w₂ ∧
    rowsAt x w "s.rs" = 0 ∧ rowsAt x w₁ "t.rs" = 1 ∧ rowsAt x w₂ "u.rs" = 2

theorem addedTwice_of_returns {x : Line} {contracts contracts' : String} {w : World}
    (h : (annotate "s.rs" contracts "t.rs").returns w fun _ w₁ =>
      (annotate "t.rs" contracts' "u.rs").returns w₁ fun _ w₂ =>
        rowsAt x w "s.rs" == 0 && (rowsAt x w₁ "t.rs" == 1 && rowsAt x w₂ "u.rs" == 2)) :
    AddedTwice x contracts contracts' w := by
  obtain ⟨_, w₁, hrun, h⟩ := Effect.exists_of_returns h
  obtain ⟨_, w₂, hrun', h⟩ := Effect.exists_of_returns h
  rw [Bool.and_eq_true, Bool.and_eq_true, beq_iff_eq, beq_iff_eq, beq_iff_eq] at h
  exact ⟨w₁, w₂, hrun, hrun', h⟩

/-- Either declaration can be added twice: the feature where the source has no import, the import of
the invariants wherever both contracts have a section. -/
theorem declarations_added_twice :
    AddedTwice featureRow "c.rs" "d.rs" (World.ofFiles
      [("s.rs", "#[inline]\nfn f() \x7b\x7d\nfn g() \x7b\x7d\n"),
        ("c.rs", "_None\n#[requires(true)]\nf\n"), ("d.rs", "_None\n#[requires(true)]\ng\n")]) ∧
    AddedTwice invariantRow "c.rs" "c.rs" (World.ofFiles
      [("s.rs", "fn f() \x7b\x7d\n"), ("c.rs", "type invariant\ninv\n")]) := by
  constructor
  · apply addedTwice_of_returns
    decide +kernel
  · apply addedTwice_of_returns
    decide +kernel

end Covenant.Merge
