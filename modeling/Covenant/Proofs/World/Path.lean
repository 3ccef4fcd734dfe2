import Covenant.Proofs.World.Disk

/-!
# Where paths with the same beginning lead

A path that can be followed leads where its names lead (`locate_eq_ofPath`), so whether two paths
lead to one place is seen from their texts. An ending without a slash is part of the last name:
paths that differ in such an ending lead to different places.
-/

namespace Covenant

namespace Text

theorem getLast?_append_of_ne_nil {s t : List Char} (h : t ≠ []) :
    (s ++ t).getLast? = t.getLast? := by
  rw [List.getLast?_append, List.getLast?_eq_some_getLast h]
  rfl

theorem pieces_of_not_mem {p : Char → Bool} {s : List Char} (h : ∀ c ∈ s, p c = false) :
    pieces p s = [s] := by
  induction s with
  | nil => rfl
  | cons c r ih =>
    rw [pieces, h c List.mem_cons_self, ih fun c hc => h c (List.mem_cons_of_mem _ hc)]
    rfl

/-- A text without separators goes to the last piece. -/
theorem exists_pieces_append (p : Char → Bool) (s : List Char) :
    ∃ init last, ∀ t : List Char, (∀ c ∈ t, p c = false) →
      pieces p (s ++ t) = init ++ [last ++ t] := by
  induction s with
  | nil => exact ⟨[], [], fun t ht => pieces_of_not_mem ht⟩
  | cons c r ih =>
    obtain ⟨init, last, h⟩ := ih
    cases hc : p c with
    | true =>
      refine ⟨[] :: init, last, fun t ht => ?_⟩
      rw [List.cons_append, pieces, hc, h t ht]
      rfl
    | false =>
      cases init with
      | nil =>
        refine ⟨[], c :: last, fun t ht => ?_⟩
        rw [List.cons_append, pieces, hc, h t ht]
        rfl
      | cons l ls =>
        refine ⟨(c :: l) :: ls, last, fun t ht => ?_⟩
        rw [List.cons_append, pieces, hc, h t ht]
        rfl

theorem pieces_ne_nil (p : Char → Bool) (s : List Char) : pieces p s ≠ [] := by
  obtain ⟨init, last, h⟩ := exists_pieces_append p s
  have hs := h [] (by simp)
  rw [List.append_nil] at hs
  rw [hs]
  simp

theorem pieces_append_cons {p : Char → Bool} {d : Char} (hd : p d = true) (s t : List Char) :
    pieces p (s ++ d :: t) = pieces p s ++ pieces p t := by
  induction s with
  | nil => simp [pieces, hd]
  | cons c r ih =>
    rw [List.cons_append, pieces, pieces, ih]
    cases p c with
    | true => rfl
    | false =>
      cases hr : pieces p r with
      | nil => exact absurd hr (pieces_ne_nil p r)
      | cons l ls => rfl

end Text

namespace Path

/-- An ending of a name, which does not make it one of the names with a meaning. -/
def IsEnding (e : String) : Prop := '/' ∉ e.toList ∧ e ≠ "" ∧ e.toList.getLast? ≠ some '.'

instance (e : String) : Decidable (IsEnding e) := inferInstanceAs (Decidable (_ ∧ _))

theorem IsEnding.all_ne {e : String} (h : IsEnding e) : ∀ c ∈ e.toList, (c == '/') = false := by
  intro c hc
  rw [beq_eq_false_iff_ne]
  exact fun he => h.1 (he ▸ hc)

theorem IsEnding.append_ne_empty {e : String} (h : IsEnding e) (z : String) : z ++ e ≠ "" := by
  intro hz
  have hl := congrArg String.toList hz
  rw [String.toList_append, String.toList_empty, List.append_eq_nil_iff] at hl
  exact h.2.1 (String.toList_inj.1 hl.2)

theorem IsEnding.append_ne_dots {e : String} (h : IsEnding e) (z : String) :
    z ++ e ≠ "." ∧ z ++ e ≠ ".." := by
  have hne : e.toList ≠ [] := fun he => h.2.1 (String.toList_inj.1 he)
  have hlast : (z ++ e).toList.getLast? = e.toList.getLast? := by
    rw [String.toList_append, Text.getLast?_append_of_ne_nil hne]
  refine ⟨fun hz => h.2.2 ?_, fun hz => h.2.2 ?_⟩
  · rw [← hlast, hz]
    rfl
  · rw [← hlast, hz]
    rfl

theorem names_eq (path : String) :
    names path = ((Text.pieces (· == '/') path.toList).map String.ofList).filter (· != "") := rfl

/-- An ending goes to the last name. -/
theorem exists_names_append (q : String) :
    ∃ init last, ∀ e, IsEnding e → names (q ++ e) = init ++ [last ++ e] := by
  obtain ⟨init, last, h⟩ := Text.exists_pieces_append (· == '/') q.toList
  refine ⟨(init.map String.ofList).filter (· != ""), String.ofList last, fun e he => ?_⟩
  have hlast : String.ofList (last ++ e.toList) = String.ofList last ++ e := by
    rw [← String.toList_inj]
    simp
  rw [names_eq, String.toList_append, h _ he.all_ne, List.map_append, List.filter_append,
    List.map_singleton, hlast]
  simp [he.append_ne_empty]

theorem names_within (path e : String) (he : IsEnding e) :
    names (path ++ "/" ++ e) = names path ++ [e] := by
  have hl : (path ++ "/" ++ e).toList = path.toList ++ '/' :: e.toList := by simp
  have hcut := Text.pieces_append_cons (p := (· == '/')) (beq_self_eq_true '/') path.toList e.toList
  rw [names_eq, hl, hcut, Text.pieces_of_not_mem he.all_ne, List.map_append, List.filter_append,
    List.map_singleton, String.ofList_toList, names_eq]
  simp [he.2.1]

theorem isRooted_append {q e : String} (he : '/' ∉ e.toList) : isRooted (q ++ e) = isRooted q := by
  unfold isRooted
  rw [String.toList_append]
  cases hq : q.toList with
  | cons c r => rfl
  | nil =>
    cases hl : e.toList with
    | nil => rfl
    | cons c r =>
      rw [hl] at he
      simp only [List.nil_append, List.head?_cons, List.head?_nil, Option.some_beq_some,
        Option.none_beq_some, beq_eq_false_iff_ne]
      exact fun hc => he (hc ▸ List.mem_cons_self)

theorem isRooted_within {path : String} (hpath : path ≠ "") (e : String) :
    isRooted (path ++ "/" ++ e) = isRooted path := by
  unfold isRooted
  cases hp : path.toList with
  | nil => exact absurd (String.toList_inj.1 hp) hpath
  | cons c r => simp [hp]

theorem slash_not_mem_base (path : String) : '/' ∉ (base path).toList := by
  rw [base, String.toList_ofList, List.mem_reverse]
  intro hm
  have hall := List.all_eq_true.1 (List.all_takeWhile (p := (· != '/')) (l := path.toList.reverse))
  simpa using hall _ hm

theorem isRooted_base (path : String) : isRooted (base path) = false := by
  rw [isRooted, beq_eq_false_iff_ne]
  intro h
  exact slash_not_mem_base path (List.mem_of_mem_head? (Option.mem_def.2 h))

theorem isEnding_base {q e : String} (he : IsEnding e) : IsEnding (base (q ++ e)) := by
  have hall : ∀ c ∈ e.toList.reverse, (c != '/') = true := by
    intro c hc
    rw [bne_iff_ne]
    rintro rfl
    exact he.1 (List.mem_reverse.1 hc)
  have hbase : (base (q ++ e)).toList = (base q).toList ++ e.toList := by
    rw [base, base, String.toList_ofList, String.toList_ofList, String.toList_append,
      List.reverse_append, List.takeWhile_append_of_pos hall, List.reverse_append,
      List.reverse_reverse]
  have hne : e.toList ≠ [] := fun h => he.2.1 (String.toList_inj.1 h)
  refine ⟨slash_not_mem_base _, fun h => ?_, ?_⟩
  · rw [h] at hbase
    exact hne (List.append_eq_nil_iff.1 hbase.symm).2
  · rw [hbase, Text.getLast?_append_of_ne_nil hne]
    exact he.2.2

end Path

namespace Location

theorem follow_append (l : Location) (ns ns' : List String) :
    l.follow (ns ++ ns') = (l.follow ns).follow ns' := List.foldl_append

theorem follow_singleton {l : Location} {name : String} (h : name ≠ "." ∧ name ≠ "..") :
    l.follow [name] = l.child name := by
  show (if name = "." then l else if name = ".." then l.parent else l.child name) = _
  rw [if_neg h.1, if_neg h.2]

/-- Paths that differ in an ending lead to places with different names in one directory. -/
theorem exists_ofPath_append (q : String) :
    ∃ (l : Location) (z : String), ∀ e, Path.IsEnding e → ofPath (q ++ e) = l.child (z ++ e) := by
  obtain ⟨init, last, h⟩ := Path.exists_names_append q
  refine ⟨follow ⟨Base.ofPath q, []⟩ init, last, fun e he => ?_⟩
  rw [ofPath, Base.ofPath, Path.isRooted_append he.1, h e he, follow_append,
    follow_singleton (he.append_ne_dots last)]
  rfl

theorem ofPath_append_ne {q a b : String} (ha : Path.IsEnding a) (hb : Path.IsEnding b)
    (hne : a ≠ b) : ofPath (q ++ a) ≠ ofPath (q ++ b) := by
  obtain ⟨l, z, h⟩ := exists_ofPath_append q
  rw [h a ha, h b hb]
  intro he
  have hnames : l.names ++ [z ++ a] = l.names ++ [z ++ b] := congrArg names he
  have hz : z ++ a = z ++ b := by simpa using hnames
  refine hne (String.toList_inj.1 ?_)
  simpa using congrArg String.toList hz

/-- Paths whose last characters differ lead to different places. -/
theorem ofPath_append_ne_of_getLast? {p q a b : String} (ha : Path.IsEnding a)
    (hb : Path.IsEnding b) (hne : a.toList.getLast? ≠ b.toList.getLast?) :
    ofPath (p ++ a) ≠ ofPath (q ++ b) := by
  obtain ⟨l, z, h⟩ := exists_ofPath_append p
  obtain ⟨l', z', h'⟩ := exists_ofPath_append q
  have hlast {e : String} (he : Path.IsEnding e) (z : String) :
      (z ++ e).toList.getLast? = e.toList.getLast? := by
    rw [String.toList_append, Text.getLast?_append_of_ne_nil fun hl =>
      he.2.1 (String.toList_inj.1 hl)]
  rw [h a ha, h' b hb]
  intro he
  have hnames : (l.names ++ [z ++ a]).getLast? = (l'.names ++ [z' ++ b]).getLast? :=
    congrArg (·.names.getLast?) he
  rw [List.getLast?_concat, List.getLast?_concat, Option.some.injEq] at hnames
  exact hne (by rw [← hlast ha z, hnames, hlast hb z'])

theorem ofPath_within {path e : String} (hpath : path ≠ "") (he : Path.IsEnding e) :
    ofPath (path ++ "/" ++ e) = (ofPath path).child e := by
  have hdots : e ≠ "." ∧ e ≠ ".." := by simpa using he.append_ne_dots ""
  rw [ofPath, Base.ofPath, Path.isRooted_within hpath, Path.names_within path e he, follow_append,
    follow_singleton hdots]
  rfl

theorem ofPath_within_ne {path e : String} (hpath : path ≠ "") (he : Path.IsEnding e) :
    ofPath (path ++ "/" ++ e) ≠ ofPath path := by
  intro h
  have hnames := congrArg (·.names.length) ((ofPath_within hpath he).symm.trans h)
  simp [child] at hnames

end Location

namespace Disk

theorem eq_follow_of_walk {d : Disk} {here found : Location} {names : List String}
    (h : d.walk here names = .ok found) : found = here.follow names := by
  induction names generalizing here with
  | nil => exact (Except.ok.inj h).symm
  | cons name rest ih =>
    obtain ⟨-, there, hpass, hrest⟩ := walk_cons_iff.1 h
    have hthere : there = here.follow [name] := by
      cases hpass with
      | dot h =>
        rw [h]
        rfl
      | up h =>
        rw [h]
        rfl
      | child h _ => exact (Location.follow_singleton h).symm
    rw [ih hrest, hthere, ← Location.follow_append, List.singleton_append]

/-- A path that can be followed leads where its names lead. -/
theorem locate_eq_ofPath {d : Disk} {path : String} {l : Location} (h : d.locate path = .ok l) :
    l = Location.ofPath path :=
  eq_follow_of_walk (locate_eq_ok_iff.1 h).2

theorem apart_of_ofPath_ne {a b : String} (h : Location.ofPath a ≠ Location.ofPath b) (d : Disk) :
    d.Apart a b := by
  intro l ha hb
  exact h ((locate_eq_ofPath ha).symm.trans (locate_eq_ofPath hb))

end Disk

end Covenant
