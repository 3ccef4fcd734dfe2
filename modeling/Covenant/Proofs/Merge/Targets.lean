import Covenant.Proofs.Contracts.Layout
import Covenant.Proofs.Merge.Preamble
import Covenant.Proofs.Source.Function

/-!
# What attributes stand in front of

A block is placed in front of a line that has the name of its function. A line that declares no
function with a body is its own name, so attributes can also stand in front of such a line, or of an
empty text or attributes that an earlier pass has put in (`Target`). `insertContracts_targets` says
that there is nothing else, and that attributes stand in front of functions only when no name in the
contracts is such a text.

Insertions are made by number, so the argument follows the elements of a dressing: a pass puts each
chunk directly before the element that it has compared (`aimed_insertEach`), and what is inserted
later leaves every chunk in front of what it was put before.
-/

namespace Covenant.Header

open Text

/-- What is compared of a line that declares no function with a body. -/
def wholeText (line : Line) : Line :=
  let t := strip line
  if endsWith ";\n" t || endsWith ";" t then t else trimQualifiers t

theorem declaredName_of_not_isFunction {line : Line} (h : isFunction line = false) :
    declaredName (strip line) = wholeText line := by
  unfold isFunction at h
  unfold declaredName wholeText
  dsimp only
  cases hend : endsWith ";\n" (strip line) || endsWith ";" (strip line) with
  | true => rw [if_pos rfl, if_pos rfl]
  | false =>
    have hfn : declaresFunction (trimQualifiers (strip line)) = false := by simpa [hend] using h
    rw [hfn, if_neg Bool.false_ne_true, if_neg Bool.false_ne_true, if_neg Bool.false_ne_true]

end Covenant.Header

namespace Covenant.Merge

open Text Header Contracts Dressing

/-! ## Chunks -/

/-- The text is the attributes of a block of the contract lines, and `name` is the line that names
the function of the block. -/
inductive BlockText (contracts : List Line) (name : Line) : Line → Prop
  | mk {above below attributes : List Line} {header indent : Line}
      (hsplit : contracts = above ++ header :: attributes ++ name :: below)
      (hindent : ∀ c ∈ indent, isBlank c = true)
      (hattributes : ∀ a ∈ attributes, isAttribute a = true) (hname : isAttribute name = false) :
      BlockText contracts name (indented indent attributes)

section BlockText

variable {contracts : List Line} {name t : Line}

theorem BlockText.not_isAttribute (h : BlockText contracts name t) : isAttribute name = false := by
  obtain ⟨-, -, -, hname⟩ := h
  exact hname

/-- A chunk with something in it is an attribute, and the name line follows an attribute. -/
theorem BlockText.nil_or_isAttribute (h : BlockText contracts name t) :
    t = [] ∨ isAttribute t = true ∧
      ∃ above a below, contracts = above ++ a :: name :: below ∧ isAttribute a = true := by
  obtain @⟨above, below, attributes, header, indent, hsplit, hindent, hattributes, -⟩ := h
  cases attributes with
  | nil => exact .inl rfl
  | cons a as =>
    refine .inr ⟨isAttribute_indented hindent (hattributes a List.mem_cons_self) as, ?_⟩
    obtain ⟨init, last, hlast⟩ : ∃ init last, a :: as = init ++ [last] :=
      ⟨_, _, (List.dropLast_concat_getLast (List.cons_ne_nil a as)).symm⟩
    refine ⟨above ++ header :: init, last, below, ?_, hattributes last (by rw [hlast]; simp)⟩
    rw [hsplit, hlast]
    simp

/-- A chunk is its own name. -/
theorem BlockText.declaredName_eq (h : BlockText contracts name t) :
    declaredName (strip t) = strip t := by
  obtain rfl | ⟨ht, -⟩ := h.nil_or_isAttribute
  · rfl
  · exact (plain_of_isAttribute ht).2.2

theorem Placement.Fits.blockText {source : List Line} {start : Nat} {p : Placement}
    (h : p.Fits (contracts.drop start) source) : BlockText contracts p.nameLine p.text := by
  obtain ⟨above, header, below, hsplit, -⟩ := h.split
  exact .mk hsplit (fun c hc => isBlank_of_mem_indentation hc) h.standsIn.isAttribute_attributes
    h.not_isAttribute_nameLine

end BlockText

/-! ## Aims -/

/-- The attributes `t` have the name of the line, or of attributes between them and the line. -/
def AimedAt (contracts : List Line) (t : Line) (below : List Extra) (line : Line) : Prop :=
  ∃ name l, BlockText contracts name t ∧ (l = line ∨ .attributes l ∈ below) ∧
    declaredName (strip l) = declaredName (strip name)

/-- All attributes of a gap have the name of something below them, up to the line. -/
def AimedGap (contracts : List Line) (gap : List Extra) (line : Line) : Prop :=
  ∀ above t below, gap = above ++ .attributes t :: below → AimedAt contracts t below line

/-- All attributes have the name of something below them. -/
def Dressing.Aimed (contracts : List Line) (d : Dressing) : Prop :=
  ∀ e ∈ d, AimedGap contracts e.gap e.line

/-- All texts that were put in are attributes. -/
def Dressing.OnlyAttributes (d : Dressing) : Prop := d.All fun x => ∃ t, x = .attributes t

section Aimed

variable {contracts : List Line} {d : Dressing}

theorem AimedAt.mono {t line : Line} {below below' : List Extra}
    (h : AimedAt contracts t below line) (hsub : below ⊆ below') :
    AimedAt contracts t below' line := by
  obtain ⟨name, l, hblock, hl, hname⟩ := h
  exact ⟨name, l, hblock, hl.imp_right fun hmem => hsub hmem, hname⟩

theorem aimedGap_insertAt {gap : List Extra} {line : Line} {x : Extra} {n : Nat}
    (h : AimedGap contracts gap line)
    (hx : ∀ t, x = .attributes t → AimedAt contracts t (gap.drop n) line) :
    AimedGap contracts (insertAt n x gap) line := by
  intro above t below hsplit
  have hgap := List.take_append_drop n gap
  rw [insertAt, List.append_eq_append_iff] at hsplit
  obtain ⟨rest, rfl, hrest⟩ | ⟨rest, htake, hrest⟩ := hsplit
  · cases rest with
    | nil =>
      obtain ⟨rfl, rfl⟩ := List.cons.inj hrest
      exact hx t rfl
    | cons y rest =>
      obtain ⟨rfl, hdrop⟩ := List.cons.inj hrest
      exact h (gap.take n ++ rest) t below (hgap.symm.trans (by rw [hdrop]; simp))
  · cases rest with
    | nil =>
      obtain ⟨rfl, rfl⟩ := List.cons.inj hrest
      exact hx t rfl
    | cons y rest =>
      obtain ⟨rfl, rfl⟩ := List.cons.inj hrest
      refine (h above t (rest ++ gap.drop n) (hgap.symm.trans (by rw [htake]; simp))).mono ?_
      exact List.append_subset.2 ⟨List.subset_append_left .., fun y hy => by simp [hy]⟩

/-- Attributes that are put before an element with the name of their function are aimed at it, and
what was there stays aimed. -/
theorem aimed_insertBefore {n : Nat} {x : Extra} (h : d.Aimed contracts)
    (hx : ∀ t, x = .attributes t → d.OnlyAttributes ∧ ∃ name l, BlockText contracts name t ∧
      (elements d)[n]? = some l ∧ declaredName (strip l) = declaredName (strip name)) :
    (insertBefore n x d).Aimed contracts := by
  induction d generalizing n with
  | nil => exact h
  | cons e d ih =>
    obtain ⟨he, hd⟩ := List.forall_mem_cons.1 h
    rw [insertBefore]
    split
    · next hn =>
      refine List.forall_mem_cons.2 ⟨aimedGap_insertAt he fun t ht => ?_, hd⟩
      obtain ⟨honly, name, l, hblock, hl, hname⟩ := hx t ht
      refine ⟨name, l, hblock, ?_, hname⟩
      rw [elements_cons] at hl
      rcases Nat.lt_or_eq_of_le hn with hlt | rfl
      · -- the element is a text of the gap
        rw [List.getElem?_append_left (by simpa using hlt), List.getElem?_map,
          List.getElem?_eq_getElem hlt] at hl
        obtain ⟨u, hu⟩ := honly e List.mem_cons_self e.gap[n] (List.getElem_mem hlt)
        rw [hu] at hl
        obtain rfl : u = l := Option.some.inj hl
        exact .inr (hu ▸ List.mem_of_getElem? (i := 0) (by
          rw [List.getElem?_drop, Nat.add_zero, List.getElem?_eq_getElem hlt]))
      · rw [List.getElem?_append_right (by simp)] at hl
        simp only [List.length_map, Nat.sub_self, List.getElem?_cons_zero, Option.some.injEq] at hl
        exact .inl hl.symm
    · next hn =>
      refine List.forall_mem_cons.2 ⟨he, ih hd fun t ht => ?_⟩
      obtain ⟨honly, name, l, hblock, hl, hname⟩ := hx t ht
      refine ⟨fun e' he' => honly e' (List.mem_cons_of_mem _ he'), name, l, hblock, ?_, hname⟩
      rw [elements_cons, List.append_cons, List.getElem?_append_right (by simp; omega)] at hl
      simpa using hl

theorem getElem?_insertAt {α : Type} {n k : Nat} {x : α} {ls : List α} (h : n ≤ k)
    (hn : n ≤ ls.length) : (insertAt n x ls)[k + 1]? = ls[k]? := by
  rw [← List.head?_drop, drop_insertAt h hn, List.head?_drop]

/-- The insertions of one pass: each is before the line that it was found for, since those above it
are as many as it was moved down. -/
theorem aimed_insertEach {ps : List Placement} {n : Nat} (h : d.Aimed contracts)
    (honly : d.OnlyAttributes) (hpair : ps.Pairwise fun p q => p.index < q.index)
    (hps : ∀ p ∈ ps, BlockText contracts p.nameLine p.text ∧
      (elements d)[p.index + n]? = some p.line ∧
      declaredName (strip p.line) = declaredName (strip p.nameLine)) :
    (d.insertEach (numbered n ps)).Aimed contracts := by
  induction ps generalizing n d with
  | nil => exact h
  | cons p ps ih =>
    obtain ⟨hp, hps⟩ := List.forall_mem_cons.1 hps
    obtain ⟨hlt, hpair⟩ := List.pairwise_cons.1 hpair
    have hbound := (List.getElem?_eq_some_iff.1 hp.2.1).1
    refine ih (d := insertBefore (p.index + n) (.attributes p.text) d) ?_
      (all_insertBefore honly ⟨_, rfl⟩) hpair fun q hq => ?_
    · refine aimed_insertBefore h fun t ht => ⟨honly, p.nameLine, p.line, ?_⟩
      obtain rfl := Extra.attributes.inj ht
      exact hp
    · obtain ⟨hblock, hline, hname⟩ := hps q hq
      have := hlt q hq
      refine ⟨hblock, ?_, hname⟩
      rw [elements_insertBefore _ hbound, ← Nat.add_assoc,
        getElem?_insertAt (by omega) (Nat.le_of_lt hbound), hline]

end Aimed

section Merge

variable {source contracts : List Line} {m : Merged}

/-- A merge puts attributes in front of what has their name. -/
theorem merge_aimed (h : merge source contracts = .ok m) :
    (m.dressing source).Aimed contracts := by
  refine (merge_induction (P := fun m => elements (m.dressing source) = m.lines ∧
    (m.dressing source).Aimed contracts) (fun m start s hm hs => ?_) (fun u a => ?_) h).2
  · obtain ⟨he, ha⟩ := hm
    refine ⟨elements_dressing_add he hs, ?_⟩
    show ((bare source).insertEach (m.inserted ++ s.found)).Aimed contracts
    rw [insertEach_append, found_sweep hs]
    refine aimed_insertEach ha (all_dressing source m)
      ((placed_pairwise hs).imp fun hpq => hpq.2) fun p hp => ?_
    have hfits := placed_fits hs hp
    refine ⟨hfits.blockText, ?_, hfits.declaredName_eq⟩
    show (elements (m.dressing source))[p.index]? = _
    rw [he, hfits.line_eq]
  · refine ⟨elements_bare source, fun e he => ?_⟩
    obtain ⟨l, -, rfl⟩ := List.mem_map.1 he
    intro above t below hgap
    simp at hgap

theorem aimed_insertBefore? {d : Dressing} (h : d.Aimed contracts) (n : Option Nat) (t : Line) :
    (d.insertBefore? n (.preamble t)).Aimed contracts := by
  cases n with
  | none => exact h
  | some n =>
    refine aimed_insertBefore h fun t ht => ?_
    cases ht

theorem written_aimed (h : (m.dressing source).Aimed contracts) (core : Bool) :
    (m.written source core).Aimed contracts := by
  unfold Merged.written
  cases core with
  | true => exact aimed_insertBefore? h _ _
  | false =>
    cases m.attributeLine with
    | none => exact aimed_insertBefore? h _ _
    | some a => exact aimed_insertBefore? (aimed_insertBefore? h (some a) featureLine) _ _

end Merge

/-! ## Targets -/

/-- What the attributes `t` stand in front of, with `below` between them and the line. -/
inductive Target (contracts : List Line) (t : Line) (below : List Extra) (line : Line) : Prop
  /-- The function that the block names. -/
  | function {name : Line} (hblock : BlockText contracts name t) (hline : isFunction line = true)
      (hname : declaredName (strip line) = declaredName (strip name))
  /-- Any other line whose text is the name. -/
  | text {name : Line} (hblock : BlockText contracts name t) (hline : isFunction line = false)
      (hname : wholeText line = declaredName (strip name))
  /-- An empty text or attributes of an earlier pass, with their text as the name. -/
  | chunk {name u : Line} (hblock : BlockText contracts name t) (hu : .attributes u ∈ below)
      (hname : strip u = declaredName (strip name)) (hempty : u = [] ∨ isAttribute u = true)

/-- The line names nothing in the source but a function. -/
structure NamesFunction (source : List Line) (name : Line) : Prop where
  ne_nil : declaredName (strip name) ≠ []
  not_isAttribute : isAttribute (declaredName (strip name)) = false
  ne_wholeText : ∀ l ∈ source, isFunction l = false → wholeText l ≠ declaredName (strip name)

instance (source : List Line) (name : Line) : Decidable (NamesFunction source name) :=
  decidable_of_iff (declaredName (strip name) ≠ [] ∧
    isAttribute (declaredName (strip name)) = false ∧
      ∀ l ∈ source, isFunction l = false → wholeText l ≠ declaredName (strip name))
    ⟨fun h => ⟨h.1, h.2.1, h.2.2⟩, fun h => ⟨h.1, h.2, h.3⟩⟩

/-- Every line that follows an attribute, and is none itself, names nothing in the source but a
function. -/
def NamesFunctions (source contracts : List Line) : Prop :=
  ∀ p ∈ contracts.zip contracts.tail, isAttribute p.1 = true → isAttribute p.2 = false →
    NamesFunction source p.2

instance (source contracts : List Line) : Decidable (NamesFunctions source contracts) :=
  inferInstanceAs (Decidable (∀ p ∈ contracts.zip contracts.tail, isAttribute p.1 = true →
    isAttribute p.2 = false → NamesFunction source p.2))

theorem mem_zip_tail {α : Type} (above : List α) (a b : α) (below : List α) :
    (a, b) ∈ (above ++ a :: b :: below).zip (above ++ a :: b :: below).tail := by
  induction above with
  | nil => exact List.mem_cons_self
  | cons x above ih =>
    obtain ⟨y, l, hl⟩ : ∃ y l, above ++ a :: b :: below = y :: l :=
      List.exists_cons_of_ne_nil (by simp)
    rw [hl] at ih
    rw [List.cons_append, hl]
    exact List.mem_cons_of_mem _ ih

section Target

variable {contracts source : List Line} {d : Dressing} {e : DressedLine} {t : Line}
  {above below : List Extra}

/-- In a dressing where all attributes are aimed, each stands in front of a target. -/
theorem Dressing.Aimed.target (h : d.Aimed contracts) (he : e ∈ d)
    (hgap : e.gap = above ++ .attributes t :: below) : Target contracts t below e.line := by
  obtain ⟨name, l, hblock, rfl | hl, hname⟩ := h e he above t below hgap
  · cases hline : isFunction e.line with
    | true => exact .function hblock hline hname
    | false => exact .text hblock hline (declaredName_of_not_isFunction hline ▸ hname)
  · -- the text below is a chunk itself
    obtain ⟨above', below', hbelow⟩ := List.append_of_mem hl
    have hgap' : e.gap = (above ++ .attributes t :: above') ++ .attributes l :: below' := by
      rw [hgap, hbelow]
      simp
    obtain ⟨name', -, hblock', -⟩ := h e he _ l below' hgap'
    rw [hblock'.declaredName_eq] at hname
    exact .chunk hblock hl hname (hblock'.nil_or_isAttribute.imp_right And.left)

/-- Attributes stand in front of a function when their name is that of a function only. -/
theorem Target.isFunction (h : Target contracts t below e.line) (ht : t ≠ []) (he : e.line ∈ source)
    (hnames : NamesFunctions source contracts) :
    Header.isFunction e.line = true ∧
      ∃ name, BlockText contracts name t ∧
        declaredName (strip e.line) = declaredName (strip name) := by
  have key {name : Line} (hblock : BlockText contracts name t) : NamesFunction source name := by
    obtain rfl | ⟨-, above, a, below, hsplit, ha⟩ := hblock.nil_or_isAttribute
    · exact absurd rfl ht
    · exact hnames (a, name) (hsplit ▸ mem_zip_tail above a name below) ha hblock.not_isAttribute
  cases h with
  | function hblock hline hname => exact ⟨hline, _, hblock, hname⟩
  | text hblock hline hname => exact absurd hname ((key hblock).ne_wholeText _ he hline)
  | @chunk name u hblock hu hname hempty =>
    obtain rfl | hu := hempty
    · exact absurd hname.symm (key hblock).ne_nil
    · have hattr := (key hblock).not_isAttribute
      rw [← hname, isAttribute, strip_strip] at hattr
      exact absurd (hattr.symm.trans hu) Bool.false_ne_true

end Target

/-! ## Files -/

/-- The source with all that is written before its lines. -/
def Merged.outcome (source : List Line) (m : Merged) (core annotated : Bool) : Dressing :=
  if annotated then m.dressing source else m.written source core

section Outcome

variable {source contracts : List Line} {m : Merged} {core annotated : Bool}

theorem outcome_aimed (h : merge source contracts = .ok m) :
    (m.outcome source core annotated).Aimed contracts := by
  cases annotated with
  | true => exact merge_aimed h
  | false => exact written_aimed (merge_aimed h) core

theorem elements_outcome {ls : List Line} (h : merge source contracts = .ok m)
    (hout : m.output? core annotated = some ls) :
    elements (m.outcome source core annotated) = ls := by
  unfold Merged.output? at hout
  split at hout
  · obtain rfl := Option.some.inj hout
    cases annotated with
    | true => exact (merge_dressing h).2.2
    | false => exact elements_written h core
  · cases hout

@[simp] theorem source_insertBefore? (n : Option Nat) (x : Extra) (d : Dressing) :
    Dressing.source (d.insertBefore? n x) = Dressing.source d := by
  cases n with
  | none => rfl
  | some n => exact source_insertBefore n x d

theorem source_outcome (source : List Line) (m : Merged) (core annotated : Bool) :
    Dressing.source (m.outcome source core annotated) = source := by
  cases annotated with
  | true => exact source_dressing source m
  | false =>
    show Dressing.source (m.written source core) = source
    unfold Merged.written
    cases core with
    | true => exact (source_insertBefore? ..).trans (source_dressing source m)
    | false =>
      cases m.attributeLine with
      | none => exact (source_insertBefore? ..).trans (source_dressing source m)
      | some a =>
        exact (source_insertBefore? ..).trans
          ((source_insertBefore ..).trans (source_dressing source m))

end Outcome

/-- What a run with new attributes writes. All attributes stand in front of a target, and of the
function that they name if the contracts name functions only. -/
theorem insertContracts_targets {source contracts output : String} {w w' : World}
    (h : insertContracts source contracts output w = .ok true w') :
    ∃ st ct m annotated, w.disk.read source = .ok (.text st) ∧
      w.disk.read contracts = .ok (.text ct) ∧ merge (linesOf st) (linesOf ct) = .ok m ∧
      isAnnotatedFile source w = .ok annotated w ∧
      let d := m.outcome (linesOf st) (isCorePath source) annotated
      Dressing.source d = linesOf st ∧
        w'.disk.read output = .ok (.text (String.ofList (elements d).flatten)) ∧
        (∀ e ∈ d, ∀ above t below, e.gap = above ++ .attributes t :: below →
          Target (linesOf ct) t below e.line) ∧
        (NamesFunctions (linesOf st) (linesOf ct) →
          ∀ e ∈ d, ∀ t, .attributes t ∈ e.gap → t ≠ [] →
            isFunction e.line = true ∧ ∃ name, BlockText (linesOf ct) name t ∧
              declaredName (strip e.line) = declaredName (strip name)) := by
  obtain ⟨st, ct, m, annotated, hst, hct, hm, ha, ⟨hf, -⟩ | ⟨ls, -, hls, hw⟩⟩ :=
    insertContracts_eq_ok h
  · cases hf
  refine ⟨st, ct, m, annotated, Disk.read_of_load hst, Disk.read_of_load hct, hm, ha,
    source_outcome .., ?_, ?_, ?_⟩
  · rw [elements_outcome hm hls]
    exact Disk.read_write_self hw
  · intro e he above t below hgap
    exact (outcome_aimed hm).target he hgap
  · intro hnames e he t ht hne
    obtain ⟨above, below, hgap⟩ := List.append_of_mem ht
    have hline : e.line ∈ linesOf st := by
      rw [← source_outcome (linesOf st) m (isCorePath source) annotated]
      exact List.mem_map_of_mem he
    exact ((outcome_aimed hm).target he hgap).isFunction hne hline hnames

/-- Two blocks in the other order than their functions, of which one is in an item. -/
theorem insertContracts_targets_functions :
    let st := "trait T \x7b\n    fn f() \x7b\x7d\n\x7d\nfn g() \x7b\x7d\n"
    let ct := "_None\n#[requires(true)]\ng\n\nT\n#[ensures(true)]\nfn f() \x7b\n"
    let w := World.ofFiles [("s.rs", st), ("c.rs", ct)]
    ∃ w' m, insertContracts "s.rs" "c.rs" "o.rs" w = .ok true w' ∧
      merge (linesOf st) (linesOf ct) = .ok m ∧ NamesFunctions (linesOf st) (linesOf ct) ∧
      ∃ annotated, ∀ e ∈ m.outcome (linesOf st) false annotated,
        ∀ t, .attributes t ∈ e.gap → t ≠ [] →
          isFunction e.line = true ∧ ∃ name, BlockText (linesOf ct) name t ∧
            declaredName (strip e.line) = declaredName (strip name) := by
  intro st ct w
  obtain ⟨b, w', hrun, rfl⟩ := Effect.exists_of_returns (x := insertContracts "s.rs" "c.rs" "o.rs")
    (w := w) (p := fun b _ => b) (by decide +kernel)
  have hst : w.disk.read "s.rs" = .ok (.text st) := eq_ok_of_toOption (by decide +kernel)
  have hct : w.disk.read "c.rs" = .ok (.text ct) := eq_ok_of_toOption (by decide +kernel)
  have hcore : isCorePath "s.rs" = false := by decide +kernel
  have hnames : NamesFunctions (linesOf st) (linesOf ct) := by decide +kernel
  obtain ⟨st', ct', m, annotated, hst', hct', hm, -, -, -, -, htargets⟩ :=
    insertContracts_targets hrun
  obtain rfl : st = st' := Content.text.inj (Except.ok.inj (hst.symm.trans hst'))
  obtain rfl : ct = ct' := Content.text.inj (Except.ok.inj (hct.symm.trans hct'))
  rw [hcore] at htargets
  exact ⟨w', m, hrun, hm, hnames, annotated, htargets hnames⟩

/-- Attributes in front of a function without a body, which is no function header. -/
theorem insertContracts_before_declaration :
    let st := "trait T \x7b\n    fn f();\n\x7d\n"
    let ct := "T\n#[requires(true)]\nfn f();\n"
    let w := World.ofFiles [("s.rs", st), ("c.rs", ct)]
    isFunction "    fn f();\n".toList = false ∧
      ∃ w', insertContracts "s.rs" "c.rs" "o.rs" w = .ok true w' ∧
        w'.disk.read "o.rs" =
          .ok (.text "trait T \x7b\n    #[requires(true)]\n    fn f();\n\x7d\n") := by
  intro st ct w
  obtain ⟨b, w', hrun, hw'⟩ := Effect.exists_of_returns
    (x := insertContracts "s.rs" "c.rs" "o.rs") (w := w)
    (p := fun b w' => b && (w'.disk.read "o.rs").toOption ==
      some (.text "trait T \x7b\n    #[requires(true)]\n    fn f();\n\x7d\n"))
    (by decide +kernel)
  obtain ⟨rfl, hout⟩ := Bool.and_eq_true_iff.1 hw'
  exact ⟨by decide +kernel, w', hrun, eq_ok_of_toOption (beq_iff_eq.1 hout)⟩

end Covenant.Merge
