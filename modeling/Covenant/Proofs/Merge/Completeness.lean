import Covenant.Proofs.Merge.Sites
import Covenant.Proofs.World.Effect

/-!
# Every block that fits is merged

In a file of blocks one pass places some blocks and stops at the next. A pass that places none gives
the first block up, which then has no site. So whatever the order of the blocks, when the passes end
each has been placed at one of its sites or has none (`merge_complete`).
-/

namespace Covenant.Merge

open Text Header Contracts Dressing

/-- The names of the blocks are declared by headers of functions only, and not in the last line. -/
structure Declares (source : List Line) (cs : List Contract) : Prop where
  isFunction : ∀ l ∈ source, ∀ c ∈ cs, declaredName (strip l) = c.name → isFunction l = true
  last : ∀ l ∈ source.getLast?, ∀ c ∈ cs, declaredName (strip l) ≠ c.name

/-- The attributes of the block stand before one of its sites. -/
def Served (source : List Line) (d : Dressing) (c : Contract) : Prop :=
  ∃ k line, source[k]? = some line ∧ SiteAt c .start source k ∧
    d.Carries k (indented (indentation line) c.attributes)

/-- The state after the blocks `tried`, of which those with a site have been placed. -/
structure Merged.Serves (m : Merged) (source : List Line) (cs tried : List Contract) : Prop where
  elements_eq : elements (m.dressing source) = m.lines
  tame : Tame cs .start (m.dressing source)
  served : ∀ c ∈ tried, HasSite c .start source → Served source (m.dressing source) c

section Serves

variable {source contracts : List Line} {m : Merged} {s : Sweep} {c : Contract}
  {all cs cs₁ tried : List Contract}

/-- What the blocks need of a source they also find in it when attributes have been inserted. -/
theorem Merged.Serves.declares (hm : m.Serves source all tried) (hd : Declares source all)
    (hcs : ∀ c ∈ cs, c ∈ all) : Declares m.lines cs := by
  constructor
  · intro l hl c hc hname
    have hmem := mem_source_of_declaredName hm.tame (hcs c hc) (hm.elements_eq ▸ hl) hname
    rw [source_dressing] at hmem
    exact hd.isFunction l hmem c (hcs c hc) hname
  · intro l hl c hc
    rw [← hm.elements_eq, getLast?_elements, source_dressing] at hl
    exact hd.last l hl c (hcs c hc)

theorem Merged.Serves.lines_ne_nil (hm : m.Serves source all tried) (hne : source ≠ []) :
    m.lines ≠ [] := by
  intro h
  have hlast := getLast?_elements (m.dressing source)
  rw [hm.elements_eq, h, source_dressing] at hlast
  exact hne (List.getLast?_eq_none_iff.1 hlast.symm)

/-- Where a block that a sweep placed has its site in the source. -/
theorem site_of_placedAt {d : Dressing} {p : Placement} (ht : Tame all .start d) (hc : c ∈ all)
    (hp : PlacedAt .start (elements d) 0 c p) (hline : (elements d)[p.index]? = some p.line) :
    SiteAt c .start d.source (d.lineOf p.index) ∧ d.lineOf p.index < d.length ∧
      p.index = d.lineIndex (d.lineOf p.index) ∧ d.source[d.lineOf p.index]? = some p.line := by
  obtain ⟨n, hn, hs, -⟩ := hp
  obtain ⟨k, hk, hsk⟩ := (siteAt_elements hc ht).1 hs
  have hlt : k < d.length := by
    obtain ⟨l, hl, -⟩ := hsk
    simpa [Dressing.source] using (List.getElem?_eq_some_iff.1 hl).1
  have hidx : p.index = d.lineIndex k := by omega
  have hof : d.lineOf p.index = k := by rw [hidx, lineOf_lineIndex hlt]
  rw [hof]
  refine ⟨hsk, hlt, hidx, ?_⟩
  rw [← getElem?_elements hlt, ← hidx, hline]

section Add

variable (hm : m.Serves source all tried) (hsweep : sweep m.lines contracts = .ok s)
  (hcs : ∀ c ∈ cs₁, c ∈ all)

include hm hsweep hcs

/-- Where a block that the next pass places has its site in the source. -/
theorem Merged.Serves.site {p : Placement} (hp : p ∈ placed m.lines contracts) (hc : c ∈ cs₁)
    (hpat : PlacedAt .start m.lines 0 c p) :
    SiteAt c .start source ((m.dressing source).lineOf p.index) ∧
      (m.dressing source).lineOf p.index < (m.dressing source).length ∧
      p.index = (m.dressing source).lineIndex ((m.dressing source).lineOf p.index) ∧
      source[(m.dressing source).lineOf p.index]? = some p.line := by
  have hline := (placed_fits hsweep hp).line_eq
  rw [← hm.elements_eq] at hpat hline
  have hsite := site_of_placedAt hm.tame (hcs c hc) hpat hline
  rwa [source_dressing] at hsite

/-- A pass puts the attributes of each block it places right before the line of its function. -/
theorem Merged.Serves.dressing_add
    (hof : ∀ p ∈ placed m.lines contracts, ∃ c ∈ cs₁, PlacedAt .start m.lines 0 c p) :
    (m.add s).dressing source = attach (fun p => (m.dressing source).lineOf p.index)
      (placed m.lines contracts) (m.dressing source) := by
  have hline : ∀ p ∈ placed m.lines contracts,
      (m.dressing source).lineOf p.index < (m.dressing source).length ∧
        p.index = (m.dressing source).lineIndex ((m.dressing source).lineOf p.index) := by
    intro p hp
    obtain ⟨c, hc, hpat⟩ := hof p hp
    obtain ⟨-, hlt, hidx, -⟩ := hm.site hsweep hcs hp hc hpat
    exact ⟨hlt, hidx⟩
  show (bare source).insertEach (m.inserted ++ s.found) = _
  rw [insertEach_append, found_sweep hsweep]
  refine insertEach_numbered hline ?_
  refine (placed_pairwise hsweep).imp_of_mem fun {p q} hp hq hpq => ?_
  refine Nat.lt_of_not_le fun hle => ?_
  have hmono := lineIndex_mono hle (hline p hp).1
  rw [← (hline p hp).2, ← (hline q hq).2] at hmono
  omega

/-- A pass serves the blocks that it places. -/
theorem Merged.Serves.add (hd : Declares source all)
    (hplaced : ∀ c ∈ cs₁, ∃ p ∈ placed m.lines contracts, PlacedAt .start m.lines 0 c p)
    (hof : ∀ p ∈ placed m.lines contracts, ∃ c ∈ cs₁, PlacedAt .start m.lines 0 c p) :
    (m.add s).Serves source all (tried ++ cs₁) := by
  have hdress := hm.dressing_add hsweep hcs hof
  refine ⟨elements_dressing_add hm.elements_eq hsweep, ?_, fun c hc hsite => ?_⟩
  · rw [hdress]
    -- the source stays the same, so a site found before the pass is still one
    refine (attach_induction (P := fun d => Tame all .start d ∧ d.source = source)
      ⟨hm.tame, source_dressing source m⟩ fun p hp d ⟨ht, hsource⟩ => ?_).1
    obtain ⟨c, hc, hpat⟩ := hof p hp
    obtain ⟨hsite, -⟩ := hm.site hsweep hcs hp hc hpat
    refine ⟨?_, (source_addAt ..).trans hsource⟩
    refine tame_addAt ht (hsource ▸ hsite)
      (fun l hl => hd.isFunction l (hsource ▸ hl) c (hcs c hc)) ?_
    obtain ⟨-, -, -, hattr⟩ := hpat
    rw [Extra.text_attributes, Placement.text, hattr]
    exact quiet_indented (fun _ => isBlank_of_mem_indentation) c.isAttribute_attributes
  · rw [hdress]
    rcases List.mem_append.1 hc with hc | hc
    · obtain ⟨k, line, hk, hsk, hcarries⟩ := hm.served c hc hsite
      exact ⟨k, line, hk, hsk, attach_induction (P := fun d => d.Carries k _) hcarries
        fun _ _ _ h => carries_addAt h⟩
    · obtain ⟨p, hp, hpat⟩ := hplaced c hc
      obtain ⟨hsk, hlt, -, hline⟩ := hm.site hsweep hcs hp hc hpat
      have hcarries : (attach (fun p => (m.dressing source).lineOf p.index)
          (placed m.lines contracts) (m.dressing source)).Carries _ p.text := carries_attach hp hlt
      obtain ⟨-, -, -, hattr⟩ := hpat
      rw [Placement.text, hattr] at hcarries
      exact ⟨_, p.line, hline, hsk, hcarries⟩

end Add

/-- One pass over blocks that are left: the first of them are served, and the next pass begins at
the others. If the first is not served, it has no site. -/
theorem Merged.Serves.pass (hm : m.Serves source all tried) (hd : Declares source all)
    (hne : source ≠ []) (hsub : ∀ c ∈ cs, c ∈ all) (hl : Layout cs contracts) (hcs : cs ≠ []) :
    ∃ s cs₁ cs₂, sweep m.lines contracts = .ok s ∧ cs = cs₁ ++ cs₂ ∧
      (m.add s).Serves source all (tried ++ cs₁) ∧
      (cs₁ = [] → ∀ c cs, cs₂ = c :: cs → ¬ HasSite c .start source) ∧
      (cs₂ = [] → s.remaining = .nothing) ∧
      (cs₂ ≠ [] → ∃ k, s.remaining = .block k ∧ k < contracts.length ∧
        Layout cs₂ (contracts.drop k) ∧ (k = 0 ↔ cs₁ = [])) := by
  have hdm := hm.declares hd hsub
  obtain ⟨s, cs₁, cs₂, hsweep, rfl, hplaced, hof, hnone, hdone, hrest⟩ :=
    sweep_awaits hl hcs (hm.lines_ne_nil hne) hdm.isFunction hdm.last
  have hsub₁ : ∀ c ∈ cs₁, c ∈ all := fun c hc => hsub c (List.mem_append_left _ hc)
  refine ⟨s, cs₁, cs₂, hsweep, rfl, hm.add hsweep hsub₁ hd hplaced hof, ?_, hdone, hrest⟩
  rintro h₁ c cs rfl hsite
  have hc : c ∈ all := hsub c (List.mem_append_right _ List.mem_cons_self)
  refine hnone h₁ c cs rfl ?_
  rw [← hm.elements_eq, hasSite_elements hc hm.tame, source_dressing]
  exact hsite

/-- A block without a site needs no place. -/
theorem Merged.Serves.giveUp (hm : m.Serves source all tried) (hc : ¬ HasSite c .start source) :
    m.Serves source all (tried ++ [c]) := by
  refine ⟨hm.elements_eq, hm.tame, fun c' hc' hsite => ?_⟩
  rcases List.mem_append.1 hc' with hc' | hc'
  · exact hm.served c' hc' hsite
  · obtain rfl := List.mem_singleton.1 hc'
    exact absurd hsite hc

/-- Sweeps that begin at the blocks that are left end with all blocks tried. -/
theorem resume_serves {start : Nat} (hd : Declares source all) (hne : source ≠ [])
    (hm : m.Serves source all tried) (hall : tried ++ cs = all) (hcs : cs ≠ [])
    (hl : Layout cs (contracts.drop start)) :
    ∃ m', resume contracts m start = .ok m' ∧ m'.Serves source all all := by
  induction hn : cs.length using Nat.strongRecOn generalizing cs tried m start with
  | ind n ih =>
    subst hn
    have hsub : ∀ c ∈ cs, c ∈ all := fun c hc => hall ▸ List.mem_append_right _ hc
    obtain ⟨s, cs₁, cs₂, hsweep, rfl, hserves, hnone, hdone, hrest⟩ := hm.pass hd hne hsub hl hcs
    rw [resume, hsweep]
    simp only
    by_cases h₂ : cs₂ = []
    · subst h₂
      rw [List.append_nil] at hall
      rw [hdone rfl]
      exact ⟨_, rfl, hall ▸ hserves⟩
    · obtain ⟨k, hk, hlt, hlay, hzero⟩ := hrest h₂
      rw [List.length_drop] at hlt
      rw [List.drop_drop] at hlay
      rw [hk]
      simp only [Remaining.line?]
      by_cases h₁ : cs₁ = []
      · -- nothing was placed: the first block is given up
        subst h₁
        obtain rfl : k = 0 := hzero.2 rfl
        rw [if_neg (by omega)]
        obtain ⟨c, cs', rfl⟩ := List.exists_cons_of_ne_nil h₂
        obtain ⟨hlay', hmore, hlast⟩ := hlay.paragraph
        have hgiven := hserves.giveUp (hnone rfl c cs' rfl)
        rw [List.append_nil] at hgiven
        have hall' : tried ++ [c] ++ cs' = all := by simpa using hall
        rw [Nat.add_zero] at hlay' hmore hlast
        rw [List.length_drop] at hmore hlast
        by_cases hcs' : cs' = []
        · have hend := hlast hcs'
          rw [if_neg (by omega)]
          subst hcs'
          rw [List.append_nil] at hall'
          exact ⟨_, rfl, hall' ▸ hgiven⟩
        · have hlt' := hmore hcs'
          rw [if_pos (by omega)]
          rw [List.drop_drop] at hlay'
          exact ih cs'.length (by simp) hgiven hall' hcs' hlay' rfl
      · -- the next sweep begins at the block at which this one stopped
        have hpos : k ≠ 0 := fun h => h₁ (hzero.1 h)
        rw [if_pos (by omega)]
        refine ih cs₂.length ?_ hserves (by rw [List.append_assoc, hall]) h₂ hlay rfl
        have := List.length_pos_iff.2 h₁
        rw [List.length_append]
        omega

/-- A merge of blocks tries them all. -/
theorem merge_serves (hd : Declares source cs) (hne : source ≠ []) (hcs : cs ≠ [])
    (hl : Layout cs contracts) :
    ∃ m, merge source contracts = .ok m ∧ m.Serves source cs cs := by
  have hstart : Merged.Serves ⟨source, [], none, none⟩ source cs [] :=
    ⟨elements_bare source, tame_bare source, fun _ h => absurd h List.not_mem_nil⟩
  obtain ⟨s, cs₁, cs₂, hsweep, rfl, hserves, -, hdone, hrest⟩ :=
    hstart.pass hd hne (fun _ hc => hc) hl hcs
  -- what the first sweep notes of the source has no part in this
  have hserves : (Merged.add ⟨source, [], s.importLine, s.attributeLine⟩ s).Serves source
      (cs₁ ++ cs₂) cs₁ := ⟨hserves.elements_eq, hserves.tame, hserves.served⟩
  rw [merge, show sweep source contracts = .ok s from hsweep]
  simp only
  by_cases h₂ : cs₂ = []
  · subst h₂
    rw [hdone rfl]
    rw [List.append_nil] at hserves ⊢
    exact ⟨_, rfl, hserves⟩
  · obtain ⟨k, hk, -, hlay, -⟩ := hrest h₂
    rw [hk]
    simp only [Remaining.line?, Nat.zero_add]
    exact resume_serves hd hne hserves rfl h₂ hlay

/-- A merge with nothing to look for, or nowhere to look, ends at once. -/
theorem merge_of_nil (h : source = [] ∨ contracts = []) :
    merge source contracts = .ok ⟨source, [], none, none⟩ := by
  have hsweep : ∀ ls cs : List Line, ls = [] ∨ cs = [] →
      sweep ls cs = .ok ⟨[], none, none, .everything⟩ := by
    intro ls cs h
    rw [sweep, if_pos (by simpa using h)]
  rw [merge, hsweep _ _ h]
  simp only [Remaining.line?]
  rw [resume, hsweep _ _ (.inr (List.drop_length ..))]
  simp [Remaining.line?, paragraphLength, Merged.add, insertAll]

/-- A block that a sweep places when it is alone in the file has a site. -/
theorem hasSite_of_found (hd : Declares source cs) (hc : c ∈ cs)
    (hsweep : sweep source c.lines = .ok s) (hfound : s.found ≠ []) :
    HasSite c .start source := by
  have hne : source ≠ [] := by
    rintro rfl
    rw [found_sweep hsweep] at hfound
    exact hfound rfl
  obtain ⟨s', cs₁, cs₂, -, hcs, -, hof, -⟩ := sweep_awaits (.single c) (List.cons_ne_nil c []) hne
    (fun l hl c' hc' => hd.isFunction l hl c' (List.mem_singleton.1 hc' ▸ hc))
    (fun l hl c' hc' => hd.last l hl c' (List.mem_singleton.1 hc' ▸ hc))
  have hplaced : placed source c.lines ≠ [] := by
    intro h
    rw [found_sweep hsweep, h] at hfound
    exact hfound rfl
  obtain ⟨p, ps, hp⟩ := List.exists_cons_of_ne_nil hplaced
  obtain ⟨c', hc', k, -, hk, -⟩ := hof p (hp ▸ List.mem_cons_self)
  have hmem : c' ∈ [c] := hcs ▸ List.mem_append_left _ hc'
  obtain rfl := List.mem_singleton.1 hmem
  exact ⟨k, hk⟩

end Serves

/-- Whatever their order, and whichever of them fit nowhere, every block that a sweep would find
alone has its attributes before the header of its function when the merge is done. -/
theorem merge_complete {source contracts : List Line} {cs : List Contract}
    (hl : Layout cs contracts) (hd : Declares source cs) :
    ∃ m, merge source contracts = .ok m ∧ elements (m.dressing source) = m.lines ∧
      ∀ c ∈ cs, (∃ s, sweep source c.lines = .ok s ∧ s.found ≠ []) →
        ∃ k e, (m.dressing source)[k]? = some e ∧ source[k]? = some e.line ∧
          SiteAt c .start source k ∧ declaredName (strip e.line) = c.name ∧
          .attributes (indented (indentation e.line) c.attributes) ∈ e.gap := by
  by_cases hne : source = []
  · refine ⟨_, merge_of_nil (.inl hne), elements_bare source, ?_⟩
    rintro c hc ⟨s, hsweep, hfound⟩
    subst hne
    exact absurd (hasSite_of_found hd hc hsweep hfound) not_hasSite_nil
  by_cases hcs : cs = []
  · subst hcs
    exact ⟨_, merge_of_nil (.inr hl.eq_nil), elements_bare source,
      fun _ h => absurd h List.not_mem_nil⟩
  obtain ⟨m, hm, hserves⟩ := merge_serves hd hne hcs hl
  refine ⟨m, hm, hserves.elements_eq, ?_⟩
  rintro c hc ⟨s, hsweep, hfound⟩
  obtain ⟨k, line, hk, hsite, e, he, hmem⟩ :=
    hserves.served c hc (hasSite_of_found hd hc hsweep hfound)
  have hline : line = e.line := by
    have hsource := congrArg (·[k]?) (source_dressing source m)
    simp only [Dressing.source, List.getElem?_map, he, Option.map_some, hk] at hsource
    exact (Option.some.inj hsource).symm
  subst hline
  refine ⟨k, e, he, hk, hsite, ?_, hmem⟩
  obtain ⟨l, hl, -, -, hname⟩ := hsite
  rwa [Option.some.inj (hk.symm.trans hl)]

/-- Blocks in another order than their functions, one of them without. -/
theorem merge_complete_unordered :
    let source := linesOf "impl<T> S<T> \x7b\n    fn a() \x7b\x7d\n\x7d\n\nfn b() \x7b\x7d\n//\n"
    let free : Contract :=
      { header := "_None\n".toList
        attributes := ["// two lines\n".toList, "#[requires(x)]\n".toList]
        nameLine := "b\n".toList
        owner := noOwner }
    let missing : Contract :=
      { header := "_None\n".toList, attributes := [], nameLine := "c\n".toList, owner := noOwner }
    let owned : Contract :=
      { header := "impl<T> S<T>\n".toList
        attributes := ["#[ensures(y)]\n".toList]
        nameLine := "a\n".toList
        owner := "S".toList }
    let blocks := [free, missing, owned]
    let contracts := free.lines ++ "\n".toList :: (missing.lines ++ "\n".toList :: owned.lines)
    Layout blocks contracts ∧ Declares source blocks ∧ ∃ m, merge source contracts = .ok m ∧
      ∃ k e, (m.dressing source)[k]? = some e ∧ SiteAt owned .start source k ∧
        .attributes "    #[ensures(y)]\n".toList ∈ e.gap := by
  intro source free missing owned blocks contracts
  have hl : Layout blocks contracts :=
    .cons free (by decide) (.cons missing (by decide) (.single owned))
  have hd : Declares source blocks := ⟨by decide +kernel, by decide +kernel⟩
  obtain ⟨m, hm, -, hserved⟩ := merge_complete hl hd
  obtain ⟨s, hs, hfound⟩ := exists_of_toOption_any (x := sweep source owned.lines)
    (p := fun s => !s.found.isEmpty) (by decide +kernel)
  obtain ⟨k, e, he, hk, hsite, hname, hmem⟩ := hserved owned (by simp [blocks])
    ⟨s, hs, by simpa using hfound⟩
  have htext : ∀ l ∈ source, declaredName (strip l) = owned.name →
      indented (indentation l) owned.attributes = "    #[ensures(y)]\n".toList := by
    decide +kernel
  rw [htext e.line (List.mem_of_getElem? hk) hname] at hmem
  exact ⟨hl, hd, m, hm, k, e, he, hsite, hmem⟩

end Covenant.Merge
