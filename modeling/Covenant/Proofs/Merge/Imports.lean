import Covenant.Proofs.Merge.Preservation
import Covenant.Proofs.World.Path

/-!
# Imports are added once

A file can be annotated again and again, each time with other contracts. The imports go in only
where no line of the file imports `kani`. They bring such a line (`withPreamble_perm`), it stands at
the start of a line of the output, and no later run takes a line apart (`lines_flatten`). So once
they are in, every later output is seen to have contracts and none gets them again.
-/

namespace Covenant.Merge

open Text Contracts Dressing

/-! ## Lines of texts that are put together -/

/-- Texts that end in a newline, but perhaps the last. -/
def Whole : List Line → Prop
  | [] => True
  | t :: ts => (ts ≠ [] → Ended t) ∧ Whole ts

theorem whole_append {a b : List Line} (hb : b ≠ []) :
    Whole (a ++ b) ↔ (∀ t ∈ a, Ended t) ∧ Whole b := by
  induction a with
  | nil => simp
  | cons t a ih =>
    have hne : a ++ b ≠ [] := List.append_ne_nil_of_right_ne_nil a hb
    rw [List.cons_append, Whole, ih, List.forall_mem_cons, and_assoc]
    simp [hne]

theorem whole_insertAt {n : Nat} {x : Line} {ls : List Line} (h : Whole ls) (hx : Ended x)
    (hn : n < ls.length) : Whole (insertAt n x ls) := by
  have hne : ls.drop n ≠ [] := by simpa using hn
  rw [← List.take_append_drop n ls, whole_append hne] at h
  exact (whole_append (List.cons_ne_nil _ _)).2 ⟨h.1, fun _ => hx, h.2⟩

theorem whole_of_settled {ls : List Line} (h : Settled ls) : Whole ls := by
  induction ls with
  | nil => trivial
  | cons t ts ih => exact ⟨h.2.1, ih h.2.2⟩

theorem whole_lines (t : List Char) : Whole (lines t) :=
  whole_of_settled (settled_of_lined (lined_lines t))

theorem lines_flatten {ts : List Line} (h : Whole ts) : lines ts.flatten = ts.flatMap lines := by
  induction ts with
  | nil => rfl
  | cons t ts ih =>
    rw [List.flatten_cons, List.flatMap_cons]
    by_cases hts : ts = []
    · subst hts
      simp
    · rw [lines_append (h.1 hts), ih h.2]

/-- What goes through a newline goes through the end of any whole lines. -/
theorem apply_append_of_ended {α : Type} {f : List Char → α} {op : α → α → α}
    (hline : ∀ a b, f (a ++ '\n' :: b) = op (f a) (f b)) (hleft : ∀ x, op (f []) x = x)
    (hright : ∀ x, op x (f []) = x) {a : List Char} (h : Ended a) (b : List Char) :
    f (a ++ b) = op (f a) (f b) := by
  rcases List.eq_nil_or_concat a with rfl | ⟨body, c, rfl⟩
  · rw [List.nil_append, hleft]
  · obtain rfl := h c (by simp)
    rw [List.concat_eq_append, List.append_assoc, List.singleton_append, hline, hline, hright]

theorem flatMap_lines {ls : List Line} (h : Lined ls) : ls.flatMap lines = ls := by
  induction ls with
  | nil => rfl
  | cons l ls ih => rw [List.flatMap_cons, lines_of_isLine h.1, ih h.2.2, List.singleton_append]

/-! ## The search for an import of `kani` -/

/-- What ends a line for the search. -/
def endsSearched (c : Char) : Bool := c == '\n' || c == '\x00'

/-- Whether the search finds an import of `kani` in the text. -/
def showsKani (t : List Char) : Bool := isAnnotated (pieces endsSearched t)

theorem isAnnotated_searched (s : String) :
    isAnnotated (Content.text s).searched = showsKani s.toList := rfl

theorem showsKani_append_newline (a b : List Char) :
    showsKani (a ++ '\n' :: b) = (showsKani a || showsKani b) := by
  unfold showsKani isAnnotated
  rw [pieces_append_cons (p := endsSearched) rfl, List.any_append]

theorem showsKani_append {a : List Char} (h : Ended a) (b : List Char) :
    showsKani (a ++ b) = (showsKani a || showsKani b) :=
  apply_append_of_ended showsKani_append_newline Bool.false_or Bool.or_false h b

/-- The search looks at the lines one by one. -/
theorem showsKani_flatten {ts : List Line} (h : Whole ts) :
    showsKani ts.flatten = ts.any showsKani := by
  induction ts with
  | nil => rfl
  | cons t ts ih =>
    rw [List.flatten_cons, List.any_cons]
    by_cases hts : ts = []
    · subst hts
      simp
    · rw [showsKani_append (h.1 hts), ih h.2]

/-! ## The imports of a merge -/

/-- The first line of the imports. -/
def firstImport : Line := "use safety::\x7bensures,requires\x7d;\n".toList

/-- How often the imports start in texts. -/
def blocksIn (ts : List Line) : Nat := (ts.flatMap lines).count firstImport

theorem insertAt_perm (n : Nat) (x : Line) (ls : List Line) :
    (insertAt n x ls).Perm (x :: ls) := by
  conv => rhs; rw [← List.take_append_drop n ls]
  exact List.perm_middle

theorem blocksIn_perm {ts us : List Line} (h : ts.Perm us) : blocksIn ts = blocksIn us :=
  (h.flatMap_right lines).count_eq firstImport

theorem blocksIn_append (ts us : List Line) : blocksIn (ts ++ us) = blocksIn ts + blocksIn us := by
  rw [blocksIn, List.flatMap_append, List.count_append, blocksIn, blocksIn]

/-- Either block of imports starts once and imports `kani`. -/
theorem blocksIn_importsOf (core : Bool) :
    blocksIn [importsOf core] = 1 ∧ showsKani (importsOf core) = true := by
  cases core with
  | true =>
    rw [importsOf_true]
    delta coreImports
    simp only [String.toList_append]
    decide +kernel
  | false =>
    rw [importsOf_false]
    delta outerImports
    simp only [String.toList_append]
    decide +kernel

theorem blocksIn_featureLine : blocksIn [featureLine] = 0 := by decide +kernel

theorem ended_featureLine : Ended featureLine := ended_of_getLast? featureLine_spec.2.1

/-- What the preamble of a merge adds. -/
def Merged.preamble (m : Merged) (core : Bool) : List Line :=
  if core then (m.importLine.map fun _ => coreImports).toList
  else
    match m.attributeLine with
    | some _ => (m.importLine.map fun _ => outerImports).toList ++ [featureLine]
    | none => (m.importLine.map fun _ => featureLine ++ outerImports).toList

theorem insertAt?_perm (n : Option Nat) (x : Line) (ls : List Line) :
    (insertAt? n x ls).Perm ((n.map fun _ => x).toList ++ ls) := by
  cases n with
  | none => exact .refl _
  | some n => exact insertAt_perm n x ls

theorem withPreamble_perm (m : Merged) (core : Bool) :
    (m.withPreamble core).Perm (m.preamble core ++ m.lines) := by
  unfold Merged.withPreamble Merged.preamble
  cases core with
  | true => exact insertAt?_perm ..
  | false =>
    cases m.attributeLine with
    | none => exact insertAt?_perm ..
    | some a =>
      refine (insertAt?_perm ..).trans ?_
      show (((m.importLine.map (· + 1)).map fun _ => outerImports).toList ++
        insertAt a featureLine m.lines).Perm
          ((m.importLine.map fun _ => outerImports).toList ++ [featureLine] ++ m.lines)
      rw [List.append_assoc, Option.map_map]
      exact (insertAt_perm a _ _).append_left _

/-- The preamble has the imports, if there is a place for them. -/
theorem blocksIn_preamble (m : Merged) (core : Bool) :
    blocksIn (m.preamble core) = (if m.importLine.isSome then 1 else 0) ∧
      (m.importLine.isSome = true → (m.preamble core).any showsKani = true) := by
  obtain ⟨hcore, hcore'⟩ := blocksIn_importsOf true
  obtain ⟨houter, houter'⟩ := blocksIn_importsOf false
  rw [importsOf_true] at hcore hcore'
  rw [importsOf_false] at houter houter'
  have hboth : blocksIn [featureLine ++ outerImports] = 1 := by
    have hsplit : blocksIn [featureLine ++ outerImports] =
        blocksIn [featureLine] + blocksIn [outerImports] := by
      simp [blocksIn, lines_append ended_featureLine]
    rw [hsplit, blocksIn_featureLine, houter]
  have hpair : blocksIn [outerImports, featureLine] = 1 := by
    have hsplit := blocksIn_append [outerImports] [featureLine]
    rwa [houter, blocksIn_featureLine] at hsplit
  have hnil : blocksIn [] = 0 := rfl
  unfold Merged.preamble
  cases core with
  | true =>
    cases m.importLine with
    | none => simp [hnil]
    | some v => simp [hcore, hcore']
  | false =>
    cases m.attributeLine with
    | none =>
      cases m.importLine with
      | none => simp [hnil]
      | some v => simp [hboth, showsKani_append ended_featureLine, houter']
    | some a =>
      cases m.importLine with
      | none => simp [blocksIn_featureLine]
      | some v => simp [hpair, houter']

/-- The texts of a merge with a preamble are whole lines, as those of the merge are. -/
theorem whole_withPreamble {source contracts : List Line} {m : Merged}
    (h : merge source contracts = .ok m) (hm : Whole m.lines) (core : Bool) :
    Whole (m.withPreamble core) := by
  obtain ⟨himport, hattr, -⟩ := notes_lt_elements h
  rw [(merge_dressing h).2.2] at himport hattr
  have hins {n : Option Nat} {x : Line} {ls : List Line} (hls : Whole ls) (hx : Ended x)
      (hn : ∀ v, n = some v → v < ls.length) : Whole (insertAt? n x ls) := by
    cases n with
    | none => exact hls
    | some v => exact whole_insertAt hls hx (hn v rfl)
  have hends (core : Bool) : Ended (importsOf core) := ended_of_getLast? (importsOf_spec core).2.1
  have hcore := hends true
  have houter := hends false
  rw [importsOf_true] at hcore
  rw [importsOf_false] at houter
  unfold Merged.withPreamble
  cases core with
  | true => exact hins hm hcore himport
  | false =>
    rw [if_neg Bool.false_ne_true]
    cases ha : m.attributeLine with
    | none => exact hins hm (ended_featureLine.append houter) himport
    | some a =>
      refine hins (whole_insertAt hm ended_featureLine (hattr a ha)) houter fun v hv => ?_
      obtain ⟨u, hu, rfl⟩ := Option.map_eq_some_iff.1 hv
      rw [length_insertAt]
      exact Nat.succ_lt_succ (himport u hu)

/-- The imports are added where the search found nothing and there is a place for them. -/
def Merged.addsImports (m : Merged) (annotated : Bool) : Bool := !annotated && m.importLine.isSome

/-- What is written besides the merged lines. -/
def Merged.extra (m : Merged) (core annotated : Bool) : List Line :=
  if annotated then [] else m.preamble core

/-- What is written holds the merged lines and the preamble, unless the search found something. -/
theorem output_perm {source contracts ls : List Line} {m : Merged} {core annotated : Bool}
    (h : merge source contracts = .ok m) (hm : Whole m.lines)
    (hout : m.output? core annotated = some ls) :
    m.hasAttributes = true ∧ Whole ls ∧ ls.Perm (m.extra core annotated ++ m.lines) := by
  unfold Merged.output? at hout
  cases hattr : m.hasAttributes with
  | false =>
    rw [hattr] at hout
    cases hout
  | true =>
    rw [hattr, if_pos rfl] at hout
    cases annotated with
    | true =>
      obtain rfl := Option.some.inj hout
      exact ⟨rfl, hm, .refl _⟩
    | false =>
      obtain rfl := Option.some.inj hout
      exact ⟨rfl, whole_withPreamble h hm core, withPreamble_perm m core⟩

theorem blocksIn_extra (m : Merged) (core annotated : Bool) :
    blocksIn (m.extra core annotated) = (if m.addsImports annotated then 1 else 0) ∧
      (m.addsImports annotated = true → (m.extra core annotated).any showsKani = true) := by
  cases annotated with
  | true => exact ⟨rfl, fun h => nomatch h⟩
  | false => exact blocksIn_preamble m core

/-- Texts without the imports before the lines of a source. -/
theorem blocksIn_elements {d : Dressing}
    (h : All (fun x => firstImport ∉ lines x.text) d) :
    blocksIn (elements d) = blocksIn (Dressing.source d) := by
  induction d with
  | nil => rfl
  | cons e d ih =>
    have hgap : blocksIn (e.gap.map Extra.text) = 0 := by
      rw [blocksIn, List.count_eq_zero, List.mem_flatMap]
      rintro ⟨t, ht, hmem⟩
      obtain ⟨x, hx, rfl⟩ := List.mem_map.1 ht
      exact h e List.mem_cons_self x hx hmem
    have hd := ih fun e' he' => h e' (List.mem_cons_of_mem _ he')
    have hsource : Dressing.source (e :: d) = [e.line] ++ Dressing.source d := rfl
    rw [elements_cons, ← List.singleton_append, hsource, blocksIn_append, blocksIn_append,
      blocksIn_append, hgap, hd, Nat.zero_add]

section Merge

variable {source contracts : List Line} {m : Merged} (hc : Lined contracts)
  (hcr : ∀ l ∈ contracts, '\r' ∉ l) (hsource : ∀ l ∈ source, '\r' ∉ l)
  (h : merge source contracts = .ok m)

include hc hcr hsource h

/-- The attributes that a merge inserts are no imports. -/
theorem blocksIn_merge : blocksIn m.lines = blocksIn source := by
  obtain ⟨-, hd⟩ := merge_pieces false hc hcr hsource h
  have hattr : All (fun x => ∃ t, x = .attributes t) (m.dressing source) :=
    all_insertEach (all_bare _ _) fun i _ => ⟨i.text, rfl⟩
  have hno : All (fun x => firstImport ∉ lines x.text) (m.dressing source) := by
    intro e he x hx hmem
    obtain ⟨t, rfl⟩ := hattr e he x hx
    obtain ⟨hpiece, -⟩ := hd e he _ hx
    cases hpiece with
    | chunk hindent hpart hattributes hlines =>
      have himport := isImport_of_blank_or_attribute (hlines _ hmem)
      revert himport
      decide
  rw [← (merge_dressing h).2.2, blocksIn_elements hno, source_dressing]

theorem whole_merge (hs : Lined source) : Whole m.lines := by
  obtain ⟨-, hd⟩ := merge_pieces false hc hcr hsource h
  rw [← (merge_dressing h).2.2]
  refine whole_of_settled (settled_elements (fun e he x hx => (hd e he x hx).1) ?_)
  rw [source_dressing]
  exact hs

end Merge

/-! ## One run -/

/-- How often the imports start in a file. -/
def blocks (s : String) : Nat := (linesOf s).count firstImport

theorem blocks_eq (s : String) : blocks s = blocksIn (linesOf s) := by
  rw [blocks, blocksIn, linesOf, flatMap_lines (lined_lines _)]

/-- How often the imports start in the text file at a path. -/
def blocksAt (w : World) (path : String) : Nat :=
  match w.disk.read path with
  | .ok (.text s) => blocks s
  | _ => 0

theorem blocksAt_of_read {w : World} {path s : String} (h : w.disk.read path = .ok (.text s)) :
    blocksAt w path = blocks s := by
  rw [blocksAt, h]

/-- A file that is there has a path that the search can be given. What it holds is searched if it
may be read. -/
theorem isAnnotatedFile_of_read {w : World} {path : String} {c : Content}
    (ho : Path.looksLikeOption path = false) (h : w.disk.read path = .ok c) :
    isAnnotatedFile path w = .ok (w.disk.mayRead path && isAnnotated c.searched) w := by
  obtain ⟨l, hl, -⟩ := Disk.read_eq_ok_iff.1 h
  unfold Disk.locate at hl
  by_cases hz : Disk.hasZeroByte path = true
  · rw [if_pos hz] at hl
    cases hl
  by_cases hlong : Disk.maxPathBytes ≤ path.utf8ByteSize
  · rw [if_neg hz, if_pos hlong] at hl
    by_cases he : path = ""
    · rw [if_pos he] at hl
      cases hl
    · rw [if_neg he] at hl
      cases hl
  have hmax : ¬ maxArgumentBytes ≤ path.utf8ByteSize := by
    unfold Disk.maxPathBytes at hlong
    unfold maxArgumentBytes
    omega
  rw [isAnnotatedFile, Effect.get_bind_apply, if_neg hz, if_neg hmax, ho,
    if_neg Bool.false_ne_true, Disk.load, h]
  cases w.disk.mayRead path with
  | true => rfl
  | false => rfl

/-- What is written with attributes holds no `\r`. The search finds in it what it finds in a source
without `\r`, and the imports if they are added; then they start once more. -/
theorem output_imports {st ct : String} {m : Merged} {core annotated : Bool} {ls : List Line}
    (hm : merge (linesOf st) (linesOf ct) = .ok m) (hls : m.output? core annotated = some ls) :
    '\r' ∉ ls.flatten ∧
      ('\r' ∉ st.toList → showsKani st.toList = true → showsKani ls.flatten = true) ∧
      (lines ls.flatten).count firstImport =
        blocks st + (if m.addsImports annotated then 1 else 0) ∧
      (m.addsImports annotated = true → showsKani ls.flatten = true) := by
  have hcr : ∀ l ∈ linesOf st, '\r' ∉ l := fun l => not_mem_linesOf
  have hcr' : ∀ l ∈ linesOf ct, '\r' ∉ l := fun l => not_mem_linesOf
  obtain ⟨-, hwhole, hperm⟩ :=
    output_perm hm (whole_merge (lined_lines _) hcr' hcr hm (lined_lines _)) hls
  obtain ⟨hextra, hkani⟩ := blocksIn_extra m core annotated
  obtain ⟨-, -, -, -, hout⟩ := exists_dressing_output hm hls
  have hshows : showsKani ls.flatten =
      ((m.extra core annotated).any showsKani || m.lines.any showsKani) := by
    rw [showsKani_flatten hwhole, hperm.any_eq, List.any_append]
  refine ⟨hout, fun hr hk => ?_, ?_, fun hadds => ?_⟩
  · -- the lines of the source are among those that are written
    have hlines : linesOf st = lines st.toList := by rw [linesOf, unifyNewlines_of_not_mem hr]
    rw [← flatten_lines st.toList, showsKani_flatten (whole_lines _), List.any_eq_true] at hk
    obtain ⟨l, hl, hk⟩ := hk
    rw [hshows, Bool.or_eq_true, List.any_eq_true, List.any_eq_true]
    refine .inr ⟨l, ?_, hk⟩
    rw [(merge_dressing hm).1, mem_insertAll, hlines]
    exact .inl hl
  · rw [lines_flatten hwhole, ← blocksIn, blocksIn_perm hperm, blocksIn_append,
      blocksIn_merge (lined_lines _) hcr' hcr hm, blocks_eq, hextra, Nat.add_comm]
  · rw [hshows, hkani hadds, Bool.true_or]

/-- What a run that inserts attributes does to the imports. -/
theorem insertContracts_imports {w w' : World} {source contracts output : String}
    (h : insertContracts source contracts output w = .ok true w') :
    ∃ st ct m annotated t, w.disk.load source = .ok (.text st) ∧
      w.disk.load contracts = .ok (.text ct) ∧ merge (linesOf st) (linesOf ct) = .ok m ∧
      isAnnotatedFile source w = .ok annotated w ∧ w'.disk.read output = .ok (.text t) ∧
      '\r' ∉ t.toList ∧
      ('\r' ∉ st.toList → showsKani st.toList = true → showsKani t.toList = true) ∧
      blocks t = blocks st + (if m.addsImports annotated then 1 else 0) ∧
      (m.addsImports annotated = true → showsKani t.toList = true) := by
  obtain ⟨st, ct, m, annotated, hst, hct, hm, ha, ⟨hf, -⟩ | ⟨ls, -, hls, hw⟩⟩ :=
    insertContracts_eq_ok h
  · cases hf
  obtain ⟨hout, hkeep, hblocks, hadded⟩ := output_imports hm hls
  have hlist := String.toList_ofList (l := ls.flatten)
  refine ⟨st, ct, m, annotated, _, hst, hct, hm, ha, Disk.read_write_self hw, ?_⟩
  rw [blocks, linesOf, hlist, unifyNewlines_of_not_mem hout]
  exact ⟨hout, hkeep, hblocks, hadded⟩

/-! ## Many runs -/

/-- A run with a source, contracts and an output, in a world. -/
structure Link where
  source : String
  contracts : String
  output : String
  world : World

namespace Link

/-- How the run ends. -/
def run (k : Link) : EStateM.Result Stop World Bool :=
  insertContracts k.source k.contracts k.output k.world

/-- Neither path is taken for an option. -/
def HasPaths (k : Link) : Prop :=
  Path.looksLikeOption k.source = false ∧ Path.looksLikeOption k.output = false

instance (k : Link) : Decidable k.HasPaths := inferInstanceAs (Decidable (_ ∧ _))

/-- The run makes the second content of the first and ends in the world. -/
structure Writes (k : Link) (c c' : Content) (w' : World) : Prop where
  source : k.world.disk.read k.source = .ok c
  run : k.run = .ok true w'
  output : w'.disk.read k.output = .ok c'

/-- The run writes an output, in which the imports start more often than in the source. -/
def Inserts (k : Link) : Prop :=
  ∃ w', k.run = .ok true w' ∧ blocksAt k.world k.source < blocksAt w' k.output

/-- An output that the run writes is seen to have contracts exactly when it may be read. -/
def LeavesAnnotated (k : Link) : Prop :=
  ∀ w', k.run = .ok true w' → isAnnotatedFile k.output w' = .ok (w'.disk.mayRead k.output) w'

end Link

/-- Runs that start from a content. A run that writes an output makes it the source of those after
it; the others leave the source to them. -/
inductive Chain : Content → List Link → Prop
  | done (c : Content) : Chain c []
  | written {k : Link} {ks : List Link} {c c' : Content} {w' : World} (h : k.Writes c c' w')
      (rest : Chain c' ks) : Chain c (k :: ks)
  | passed {k : Link} {ks : List Link} {c : Content} (hsource : k.world.disk.read k.source = .ok c)
      (hrun : ∀ w', k.run ≠ .ok true w') (rest : Chain c ks) : Chain c (k :: ks)

/-- A content in which the search finds the imports, now and after every run. -/
def Imported (c : Content) : Prop :=
  ∃ t, c = .text t ∧ '\r' ∉ t.toList ∧ showsKani t.toList = true

section Links

variable {k : Link} {c c' : Content} {w' : World}

/-- A run that writes an output adds the imports once or not at all. -/
theorem Link.Writes.cases (h : k.Writes c c' w') (ho : k.HasPaths) :
    (Imported c → Imported c') ∧
      (¬ Imported c ∧ blocksAt w' k.output = blocksAt k.world k.source + 1 ∧ Imported c' ∨
        blocksAt w' k.output = blocksAt k.world k.source) := by
  obtain ⟨st, ct, m, annotated, t, hload, -, -, ha, ht, hcr, hkeep, hblocks, hadded⟩ :=
    insertContracts_imports h.run
  obtain ⟨hst, hmay⟩ := Disk.load_eq_ok_iff.1 hload
  obtain rfl := Except.ok.inj (hst.symm.trans h.source)
  obtain rfl := Except.ok.inj (ht.symm.trans h.output)
  rw [isAnnotatedFile_of_read ho.1 hst, isAnnotated_searched, hmay, Bool.true_and] at ha
  obtain ⟨rfl, -⟩ := EStateM.Result.ok.inj ha
  rw [blocksAt_of_read hst, blocksAt_of_read ht, hblocks]
  refine ⟨?_, ?_⟩
  · rintro ⟨s, hs, hr, hk⟩
    obtain rfl := Content.text.inj hs
    exact ⟨t, rfl, hcr, hkeep hr hk⟩
  · cases hadds : m.addsImports (showsKani st.toList) with
    | false => exact .inr rfl
    | true =>
      refine .inl ⟨?_, rfl, t, rfl, hcr, hadded hadds⟩
      rintro ⟨s, hs, -, hyes⟩
      obtain rfl := Content.text.inj hs
      simp [Merged.addsImports, hyes] at hadds

/-- A run that adds the imports starts without them and leaves them. -/
theorem Link.Writes.of_inserts (h : k.Writes c c' w') (ho : k.HasPaths) (hi : k.Inserts) :
    ¬ Imported c ∧ Imported c' ∧ blocksAt w' k.output = blocksAt k.world k.source + 1 := by
  obtain ⟨v', hv, hlt⟩ := hi
  obtain ⟨-, rfl⟩ := EStateM.Result.ok.inj (h.run.symm.trans hv)
  rcases (h.cases ho).2 with ⟨hno, hone, hyes⟩ | heq
  · exact ⟨hno, hyes, hone⟩
  · omega

theorem Link.Writes.leavesAnnotated (h : k.Writes c c' w') (ho : k.HasPaths)
    (hc : Imported c') : k.LeavesAnnotated := by
  intro v' hv
  obtain ⟨-, rfl⟩ := EStateM.Result.ok.inj (h.run.symm.trans hv)
  obtain ⟨t, rfl, -, hk⟩ := hc
  rw [isAnnotatedFile_of_read ho.2 h.output, isAnnotated_searched, hk, Bool.and_true]

theorem Link.not_inserts_of_passed (hrun : ∀ w', k.run ≠ .ok true w') :
    ¬ k.Inserts ∧ k.LeavesAnnotated := by
  refine ⟨?_, fun w' hw => absurd hw (hrun w')⟩
  rintro ⟨w', hw, -⟩
  exact hrun w' hw

end Links

/-- Once the imports are in, no run adds them, and every output is seen to have contracts. -/
theorem Chain.of_imported {c : Content} {ks : List Link} (h : Chain c ks) (hc : Imported c)
    (ho : ∀ k ∈ ks, k.HasPaths) : ∀ k ∈ ks, ¬ k.Inserts ∧ k.LeavesAnnotated := by
  induction h with
  | done c => exact fun _ hk => nomatch hk
  | written h rest ih =>
    obtain ⟨hk, hks⟩ := List.forall_mem_cons.1 ho
    have hc' := (h.cases hk).1 hc
    exact List.forall_mem_cons.2
      ⟨⟨fun hi => (h.of_inserts hk hi).1 hc, h.leavesAnnotated hk hc'⟩, ih hc' hks⟩
  | passed hsource hrun rest ih =>
    obtain ⟨-, hks⟩ := List.forall_mem_cons.1 ho
    exact List.forall_mem_cons.2 ⟨Link.not_inserts_of_passed hrun, ih hc hks⟩

/-- In a chain of runs at most one adds the imports, and it adds them once. Its output and every
later one is seen to have contracts, if it may be read. -/
theorem imports_added_once {c : Content} {ks : List Link} (h : Chain c ks)
    (ho : ∀ k ∈ ks, k.HasPaths) :
    ks.Pairwise (fun k k' => k.Inserts → ¬ k'.Inserts ∧ k'.LeavesAnnotated) ∧
      ∀ k ∈ ks, k.Inserts → k.LeavesAnnotated ∧
        ∀ w', k.run = .ok true w' → blocksAt w' k.output = blocksAt k.world k.source + 1 := by
  induction h with
  | done c => exact ⟨.nil, fun _ hk => nomatch hk⟩
  | @written k ks c c' w' h rest ih =>
    obtain ⟨hk, hks⟩ := List.forall_mem_cons.1 ho
    obtain ⟨hpair, hall⟩ := ih hks
    refine ⟨.cons (fun k' hk' hi => ?_) hpair, List.forall_mem_cons.2 ⟨fun hi => ?_, hall⟩⟩
    · exact rest.of_imported (h.of_inserts hk hi).2.1 hks k' hk'
    · obtain ⟨-, hc', hone⟩ := h.of_inserts hk hi
      refine ⟨h.leavesAnnotated hk hc', fun v' hv => ?_⟩
      obtain ⟨-, rfl⟩ := EStateM.Result.ok.inj (h.run.symm.trans hv)
      exact hone
  | passed hsource hrun rest ih =>
    obtain ⟨-, hks⟩ := List.forall_mem_cons.1 ho
    obtain ⟨hpair, hall⟩ := ih hks
    have hno := Link.not_inserts_of_passed hrun
    exact ⟨.cons (fun _ _ hi => absurd hi hno.1) hpair,
      List.forall_mem_cons.2 ⟨fun hi => absurd hi hno.1, hall⟩⟩

theorem Link.exists_writes {k : Link} {w' : World} (h : k.run = .ok true w') :
    ∃ c c', k.Writes c c' w' := by
  obtain ⟨st, ct, m, annotated, t, hst, -, -, -, ht, -⟩ := insertContracts_imports h
  exact ⟨.text st, .text t, Disk.read_of_load hst, h, ht⟩

/-- A run adds the imports if its merge has a place for them and the search finds nothing. -/
theorem Link.inserts_of_merge {k : Link} {st ct : String} {m : Merged} {w' : World}
    (hrun : k.run = .ok true w') (hst : k.world.disk.read k.source = .ok (.text st))
    (hct : k.world.disk.read k.contracts = .ok (.text ct))
    (hm : merge (linesOf st) (linesOf ct) = .ok m) (hi : m.importLine.isSome = true)
    (ha : isAnnotatedFile k.source k.world = .ok false k.world) : k.Inserts := by
  obtain ⟨st', ct', m', annotated, t, hst', hct', hm', ha', ht, -, -, hblocks, -⟩ :=
    insertContracts_imports hrun
  obtain rfl := Content.text.inj (Except.ok.inj (hst.symm.trans (Disk.read_of_load hst')))
  obtain rfl := Content.text.inj (Except.ok.inj (hct.symm.trans (Disk.read_of_load hct')))
  obtain rfl := Except.ok.inj (hm.symm.trans hm')
  obtain ⟨rfl, -⟩ := EStateM.Result.ok.inj (ha.symm.trans ha')
  refine ⟨w', hrun, ?_⟩
  rw [blocksAt_of_read hst, blocksAt_of_read ht, hblocks]
  simp [Merged.addsImports, hi]

/-- Two runs in a row, of which the first adds the imports. -/
theorem imports_added_once_rerun :
    let st := "use x;\nfn f() \x7b\x7d\n"
    let ct := "_None\n#[requires(true)]\nf\n"
    let w := World.ofFiles [("library-core-s", st), ("c.rs", ct)]
    let k : Link := ⟨"library-core-s", "c.rs", "library-core-s", w⟩
    ∃ w₁ w₂, k.run = .ok true w₁ ∧
      let k' : Link := { k with world := w₁ }
      k'.run = .ok true w₂ ∧ k.Inserts ∧ ¬ k'.Inserts ∧
        isAnnotatedFile k.output w₁ = .ok true w₁ ∧ isAnnotatedFile k.output w₂ = .ok true w₂ := by
  intro st ct w k
  obtain ⟨b, w₁, hrun, hp⟩ := Effect.exists_of_returns
    (x := insertContracts "library-core-s" "c.rs" "library-core-s") (w := w)
    (p := fun b w₁ => b && (w₁.disk.mayRead "library-core-s" &&
      (insertContracts "library-core-s" "c.rs" "library-core-s").returns w₁ fun b w₂ =>
        b && w₂.disk.mayRead "library-core-s"))
    (by decide +kernel)
  obtain ⟨rfl, hmore⟩ := Bool.and_eq_true_iff.1 hp
  obtain ⟨hmay₁, hagain⟩ := Bool.and_eq_true_iff.1 hmore
  obtain ⟨_, w₂, hrun', hp'⟩ := Effect.exists_of_returns hagain
  obtain ⟨rfl, hmay₂⟩ := Bool.and_eq_true_iff.1 hp'
  obtain ⟨m, hm, himport⟩ := exists_of_toOption_any (x := merge (linesOf st) (linesOf ct))
    (p := fun m => m.importLine.isSome) (by decide +kernel)
  have hst : w.disk.read "library-core-s" = .ok (.text st) := eq_ok_of_toOption (by decide +kernel)
  have hct : w.disk.read "c.rs" = .ok (.text ct) := eq_ok_of_toOption (by decide +kernel)
  have hpath : Path.looksLikeOption "library-core-s" = false := by decide +kernel
  have hkani : showsKani st.toList = false := by decide +kernel
  have hann := isAnnotatedFile_of_read hpath hst
  rw [isAnnotated_searched, hkani, Bool.and_false] at hann
  let k' : Link := { k with world := w₁ }
  have hrun : k.run = .ok true w₁ := hrun
  have hrun' : k'.run = .ok true w₂ := hrun'
  have hi : k.Inserts := Link.inserts_of_merge hrun hst hct hm himport hann
  obtain ⟨c, c₁, hw⟩ := Link.exists_writes hrun
  obtain ⟨c₁', c₂, hw'⟩ := Link.exists_writes hrun'
  obtain rfl : c₁ = c₁' := Except.ok.inj (hw.output.symm.trans hw'.source)
  obtain ⟨hpair, hall⟩ := imports_added_once (.written hw (.written hw' (.done _)))
    (List.forall_mem_cons.2 ⟨⟨hpath, hpath⟩, List.forall_mem_singleton.2 ⟨hpath, hpath⟩⟩)
  obtain ⟨hno, hlater⟩ := (List.pairwise_cons.1 hpair).1 k' (by simp) hi
  have hseen := (hall k (by simp) hi).1 w₁ hrun
  have hseen' := hlater w₂ hrun'
  rw [show w₁.disk.mayRead k.output = true from hmay₁] at hseen
  rw [show w₂.disk.mayRead k'.output = true from hmay₂] at hseen'
  exact ⟨w₁, w₂, hrun, hrun', hi, hno, hseen, hseen'⟩

/-- A file whose name is taken for an option is not searched: after a run that adds the imports it
is not seen to have contracts. -/
theorem imports_not_seen :
    let st := "use x;\nfn f() \x7b\x7d\n"
    let ct := "_None\n#[requires(true)]\nf\n"
    let w := World.ofFiles [("-s.rs", st), ("c.rs", ct)]
    let k : Link := ⟨"-s.rs", "c.rs", "-s.rs", w⟩
    ∃ w₁, k.run = .ok true w₁ ∧ Chain (.text st) [k] ∧ k.Inserts ∧
      isAnnotatedFile "-s.rs" w₁ = .ok false w₁ := by
  intro st ct w k
  have hst : w.disk.read "-s.rs" = .ok (.text st) := eq_ok_of_toOption (by decide +kernel)
  have hct : w.disk.read "c.rs" = .ok (.text ct) := eq_ok_of_toOption (by decide +kernel)
  obtain ⟨m, hm, himport⟩ := exists_of_toOption_any (x := merge (linesOf st) (linesOf ct))
    (p := fun m => m.importLine.isSome) (by decide +kernel)
  obtain ⟨b, w₁, hrun, rfl⟩ := Effect.exists_of_returns
    (x := insertContracts "-s.rs" "c.rs" "-s.rs") (w := w) (p := fun b _ => b) (by decide +kernel)
  have hnot (v : World) : isAnnotatedFile "-s.rs" v = .ok false v := by
    have hzero : Disk.hasZeroByte "-s.rs" = false := by decide +kernel
    have hshort : ¬ maxArgumentBytes ≤ "-s.rs".utf8ByteSize := by decide +kernel
    have hoption : Path.looksLikeOption "-s.rs" = true := by decide +kernel
    have hnone : LineSearch.Options.ofPath? "-s.rs" = none :=
      Option.isNone_iff_eq_none.1 (by decide +kernel)
    rw [isAnnotatedFile, Effect.get_bind_apply, hzero, if_neg Bool.false_ne_true, if_neg hshort,
      hoption, if_pos rfl, LineSearch.succeedsWith, hnone]
    rfl
  have hrun : k.run = .ok true w₁ := hrun
  obtain ⟨c, c', hw⟩ := Link.exists_writes hrun
  obtain rfl := Except.ok.inj (hst.symm.trans hw.source)
  exact ⟨w₁, hrun, .written hw (.done _), Link.inserts_of_merge hrun hst hct hm himport (hnot w),
    hnot w₁⟩

end Covenant.Merge
