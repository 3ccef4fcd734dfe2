import Covenant.Proofs.Source.Declaration

/-!
# The name in the header of a generic `impl`

The header of an inherent `impl` with generics is `impl<G> Name {` or `impl<G> Name<A> {`, perhaps
after `unsafe`. Nothing is asked of the lists `G` and `A`: they may be any texts.

1. An `unsafe` at the start is taken off together with everything from the next `unsafe ` on, so
   only a part of the header is seen (`GenericImpl.seen`).
2. The name is looked for behind the first ` for ` in that part, and behind its first `> ` if there
   is no ` for ` (`GenericImpl.owner?_text_eq_some_iff`).
3. So the name is reached if no such word stands in its way in `G`, in `A` or at its own end
   (`GenericImpl.IsReached`). Otherwise another word is taken for it, which is right only where that
   word is the same (`GenericImpl.IsEchoed`).
-/

namespace Covenant.Text

/-! ## Occurrences beside a character -/

/-- What does not have the character `c` in it occurs on one side of `c`. -/
theorem isInfix_append_cons_iff {w u v : List Char} {c : Char} (hc : c ∉ w) :
    w <:+: u ++ c :: v ↔ w <:+: u ∨ w <:+: v := by
  have hnil : w <+: c :: v → w = [] := by
    intro hp
    rcases List.prefix_cons_iff.1 hp with rfl | ⟨t, rfl, -⟩
    · rfl
    · exact absurd List.mem_cons_self hc
  induction u with
  | nil =>
    rw [List.nil_append, List.infix_cons_iff, List.infix_nil]
    exact or_congr_left ⟨hnil, fun h => h ▸ List.nil_prefix⟩
  | cons x u ih =>
    have hprefix : w <+: x :: (u ++ c :: v) ↔ w <+: x :: u := by
      refine ⟨fun hp => ?_, fun hp => hp.trans (List.prefix_append (x :: u) (c :: v))⟩
      rcases prefix_append_cons (u := x :: u) hp with hp | ⟨t, rfl, -⟩
      · exact hp
      · exact absurd (by simp) hc
    rw [List.cons_append, List.infix_cons_iff, List.infix_cons_iff, hprefix, or_assoc]
    exact or_congr_right ih

theorem firstField_of_not_isInfix {sep : String} {s : List Char} (h : ¬ sep.toList <:+: s) :
    firstField sep s = s :=
  firstField_eq_iff.2 (.inr ⟨h, rfl⟩)

/-- The first field ends before any occurrence of the separator. -/
theorem length_firstField_le {sep : String} {s a b : List Char} (h : s = a ++ sep.toList ++ b) :
    (firstField sep s).length ≤ a.length := by
  rcases firstField_eq_iff.1 (Eq.refl (firstField sep s)) with ⟨after, hfirst⟩ | ⟨hno, -⟩
  · exact hfirst.first a b h
  · exact absurd ⟨a, b, h.symm⟩ hno

/-- A separator in the front is met there. -/
theorem firstField_append_of_isInfix {sep : String} {front : List Char}
    (h : sep.toList <:+: front) (back : List Char) :
    firstField sep (front ++ back) = firstField sep front := by
  induction front with
  | nil =>
    have hp : sep.toList.isPrefixOf back = true := by
      rw [List.infix_nil.1 h]
      rfl
    rw [firstField_nil, List.nil_append]
    cases back with
    | nil => exact firstField_nil sep
    | cons c back => rw [firstField_cons, if_pos hp]
  | cons c front ih =>
    rw [List.cons_append, firstField_cons, firstField_cons]
    by_cases hp : sep.toList <+: c :: front
    · have hlong : sep.toList <+: c :: (front ++ back) :=
        hp.trans (List.prefix_append (c :: front) back)
      rw [if_pos (List.isPrefixOf_iff_prefix.2 hp), if_pos (List.isPrefixOf_iff_prefix.2 hlong)]
    · have hfront : sep.toList <:+: front := (List.infix_cons_iff.1 h).resolve_left hp
      -- the front is long enough for the separator, so nothing of it stands behind the front
      have hlong : ¬ sep.toList <+: c :: (front ++ back) := by
        intro hl
        have hle : sep.toList.length ≤ (c :: front).length :=
          Nat.le_succ_of_le hfront.length_le
        exact hp (List.prefix_of_prefix_length_le hl (List.prefix_append (c :: front) back) hle)
      rw [if_neg fun h => hp (List.isPrefixOf_iff_prefix.1 h),
        if_neg fun h => hlong (List.isPrefixOf_iff_prefix.1 h), ih hfront]

/-- A separator without the character `c` in it that is not met before `c` is looked for behind. -/
theorem firstField_append_cons {sep : String} {u : List Char} {c : Char} (hc : c ∉ sep.toList)
    (h : ¬ sep.toList <:+: u) (v : List Char) :
    firstField sep (u ++ c :: v) = u ++ c :: firstField sep v :=
  firstField_past v h fun _ _ _ hsep => absurd (by simp [hsep]) hc

/-- What ends with the only space of a text stands at the end of what is before the space. -/
theorem isSuffix_of_isInfix_space {w name : List Char} (hname : ' ' ∉ name)
    (h : w ++ [' '] <:+: name ++ [' ', '{']) : w <:+ name := by
  obtain ⟨a, b, hab⟩ := h
  have heq : (a ++ w) ++ ' ' :: b = name ++ ' ' :: ['{'] := by simpa using hab
  have hfront : ' ' ∉ a ++ w := by
    intro hm
    have hpos : 0 < List.count ' ' (a ++ w) := List.count_pos_iff.2 hm
    have hcount := congrArg (List.count ' ') heq
    simp only [List.count_append, List.count_cons_self, List.count_eq_zero.2 hname] at hpos hcount
    have hbrace : List.count ' ' ['{'] = 0 := rfl
    omega
  have hsame := congrArg (List.takeWhile (· != ' ')) heq
  rw [takeWhile_append_cons hfront, takeWhile_append_cons hname] at hsame
  exact ⟨a, hsame⟩

/-- A closing bracket with a space behind it is the first one if there is none before it. -/
theorem firstAt_close {u : List Char} (hu : ¬ "> ".toList <:+: u) (v : List Char) :
    FirstAt "> ".toList u v (u ++ '>' :: ' ' :: v) := by
  have hfield : firstField "> " (u ++ '>' :: ' ' :: v) = u := by
    have hzero : firstField "> " ('>' :: ' ' :: v) = [] := by
      have hp : "> ".toList.isPrefixOf ('>' :: ' ' :: v) = true :=
        List.isPrefixOf_iff_prefix.2 ⟨v, rfl⟩
      rw [firstField_cons, if_pos hp]
    rw [firstField_append, hzero, List.append_nil]
    -- a bracket at the end of the front has another bracket behind it
    intro s hs hne hp
    cases s with
    | nil => exact hne rfl
    | cons x s =>
      cases s with
      | nil => exact absurd (List.cons_prefix_cons.1 (List.cons_prefix_cons.1 hp).2).1 (by decide)
      | cons y s =>
        have htwo : "> ".toList <+: x :: y :: s :=
          List.prefix_of_prefix_length_le hp (List.prefix_append _ _) (by simp)
        exact hu (htwo.isInfix.trans hs.isInfix)
  refine ⟨by simp, fun a b hab => ?_⟩
  have hle := length_firstField_le hab
  rwa [hfield] at hle

end Covenant.Text

namespace Covenant.Header

open Text

/-! ## Names behind a mark -/

/-- The characters at which a name ends. -/
def endsBareName (c : Char) : Bool := c == ' ' || c == '<' || c == ':'

theorem endsBareName_iff {c : Char} : endsBareName c = true ↔ c = ' ' ∨ c = '<' ∨ c = ':' := by
  simp [endsBareName, or_assoc]

theorem bareName_eq_takeWhile (l : Line) : bareName l = l.takeWhile fun c => !endsBareName c := by
  rw [bareName, firstField_eq_takeWhile (show ":".toList = [':'] from rfl),
    firstField_eq_takeWhile (show "<".toList = ['<'] from rfl),
    firstField_eq_takeWhile (show " ".toList = [' '] from rfl)]
  induction l with
  | nil => rfl
  | cons c l ih =>
    by_cases hspace : c = ' '
    · simp [hspace, endsBareName]
    by_cases hangle : c = '<'
    · simp [hangle, endsBareName]
    by_cases hcolon : c = ':'
    · simp [hcolon, endsBareName]
    · simpa [hspace, hangle, hcolon, endsBareName] using ih

theorem bareName_nil : bareName [] = [] := rfl

theorem bareName_cons (c : Char) (l : Line) :
    bareName (c :: l) = if endsBareName c then [] else c :: bareName l := by
  rw [bareName_eq_takeWhile, bareName_eq_takeWhile, List.takeWhile_cons]
  cases endsBareName c <;> rfl

/-- What follows a name: the next mark, a space, a bracket or a colon, or nothing. -/
def EndsName (mark : String) (after : Line) : Prop :=
  mark.toList <+: after ∨ ∀ c ∈ after.head?, c = ' ' ∨ c = '<' ∨ c = ':'

/-- The name stands right behind the first mark in the line. -/
def StandsAfter (mark : String) (name : Name) (l : Line) : Prop :=
  ∃ before after, FirstAt mark.toList before (name ++ after) l ∧ EndsName mark after

theorem StandsAfter.isInfix {mark : String} {name : Name} {l : Line}
    (h : StandsAfter mark name l) : mark.toList <:+: l := by
  obtain ⟨before, after, hfirst, -⟩ := h
  exact hfirst.isInfix

/-- A line is read as a name exactly when it begins with the name and something that ends it. -/
theorem bareName_firstField_eq_iff {mark : String} {d : Char} (hmark : mark.toList.head? = some d)
    {name : Name} (hd : d ∉ name) (hname : ∀ c ∈ name, endsBareName c = false) {l : Line} :
    bareName (firstField mark l) = name ↔ ∃ after, l = name ++ after ∧ EndsName mark after := by
  induction name generalizing l with
  | nil =>
    have hends : bareName (firstField mark l) = [] ↔ EndsName mark l := by
      unfold EndsName
      cases l with
      | nil => simp [firstField_nil, bareName_nil]
      | cons x l =>
        rw [firstField_cons, ← List.isPrefixOf_iff_prefix]
        cases hp : mark.toList.isPrefixOf (x :: l) with
        | true => simp [bareName_nil]
        | false => simp [bareName_cons, ← endsBareName_iff]
    simpa using hends
  | cons c name ih =>
    have hd' : d ∉ name := fun h => hd (List.mem_cons_of_mem c h)
    have hname' : ∀ x ∈ name, endsBareName x = false :=
      fun x hx => hname x (List.mem_cons_of_mem c hx)
    cases l with
    | nil => simp [firstField_nil, bareName_nil]
    | cons x l =>
      rw [firstField_cons]
      by_cases hx : x = c
      · subst hx
        -- the mark begins with another character than the name
        have hp : ¬ mark.toList.isPrefixOf (x :: l) = true := by
          intro hp
          have hhead := head?_of_startsWith hmark hp
          exact hd (Option.some.inj hhead ▸ List.mem_cons_self)
        rw [if_neg hp, bareName_cons, hname x List.mem_cons_self, if_neg Bool.false_ne_true,
          List.cons_inj_right, ih hd' hname']
        simp
      · have hne : ∀ r : Line, ¬ bareName (x :: r) = c :: name := by
          intro r
          rw [bareName_cons]
          cases endsBareName x <;> simp [hx]
        constructor
        · intro h
          by_cases hp : mark.toList.isPrefixOf (x :: l) = true
          · simp [hp, bareName_nil] at h
          · rw [if_neg hp] at h
            exact absurd h (hne _)
        · rintro ⟨after, hl, -⟩
          exact absurd (List.cons.inj hl).1 hx

theorem map_bareName_secondField?_eq_some_iff {mark : String} {d : Char}
    (hmark : mark.toList.head? = some d) {name : Name} (hd : d ∉ name)
    (hname : ∀ c ∈ name, endsBareName c = false) {l : Line} :
    (secondField? mark l).map bareName = some name ↔ StandsAfter mark name l := by
  unfold secondField? cut?
  cases hcut : cutAt? mark.toList l with
  | none =>
    have hno := cutAt?_eq_none_iff.1 hcut
    simp only [Option.map_none, reduceCtorEq, false_iff]
    exact fun h => hno h.isInfix
  | some p =>
    obtain ⟨before, rest⟩ := p
    have hfirst := cutAt?_eq_some_iff.1 hcut
    rw [Option.map_some, Option.map_some, Option.some.injEq,
      bareName_firstField_eq_iff hmark hd hname]
    constructor
    · rintro ⟨after, hrest, hends⟩
      exact ⟨before, after, hrest ▸ hfirst, hends⟩
    · rintro ⟨before', after, hfirst', hends⟩
      rw [cutAt?_eq_some_iff.2 hfirst'] at hcut
      exact ⟨after, (congrArg Prod.snd (Option.some.inj hcut)).symm, hends⟩

/-! ## Names of types -/

/-- A name of a type has no blanks, angle brackets or colons in it, and is not the keyword `for`.
Every identifier is one. -/
structure IsTypeName (name : Name) : Prop where
  not_blank : name.any isBlank = false
  not_open : '<' ∉ name
  not_close : '>' ∉ name
  not_colon : ':' ∉ name
  not_for : name ≠ "for".toList

namespace IsTypeName

variable {name : Name}

theorem not_space (h : IsTypeName name) : ' ' ∉ name := by
  intro hm
  have hblank : name.any isBlank = true := List.any_eq_true.2 ⟨' ', hm, by decide⟩
  rw [h.not_blank] at hblank
  cases hblank

theorem endsBareName_of_mem (h : IsTypeName name) : ∀ c ∈ name, endsBareName c = false := by
  intro c hc
  rw [Bool.eq_false_iff, Ne, endsBareName_iff]
  rintro (rfl | rfl | rfl)
  · exact h.not_space hc
  · exact h.not_open hc
  · exact h.not_colon hc

theorem bareName_eq (h : IsTypeName name) : bareName name = name := by
  have hall : ∀ c ∈ name, (!endsBareName c) = true := by
    intro c hc
    rw [h.endsBareName_of_mem c hc]
    rfl
  have hwhole : (name ++ []).takeWhile (fun c => !endsBareName c) = name ++ [] :=
    List.takeWhile_append_of_pos hall
  rwa [List.append_nil, ← bareName_eq_takeWhile] at hwhole

/-- A block with the name of a type as its header is for that type. -/
theorem headerOwner?_eq (h : IsTypeName name) {line : Line} (hline : strip line = name) :
    Contracts.headerOwner? line = some name := by
  have hspace := h.not_space
  have hno {p : String} (hp : ' ' ∈ p.toList ∨ '<' ∈ p.toList) : startsWith p name = false := by
    rw [Bool.eq_false_iff]
    intro hs
    have hsubset := (List.isPrefixOf_iff_prefix.1 hs).subset
    rcases hp with hp | hp
    · exact hspace (hsubset hp)
    · exact h.not_open (hsubset hp)
  have hspells : Contracts.spellsItem name = false := by
    rw [Contracts.spellsItem, hno (by decide), hno (by decide), hno (by decide), hno (by decide)]
    rfl
  have hhead : (strip ("impl ".toList ++ name)).head? = some 'i' := head?_strip (by decide) rfl
  have htrait : startsWith "trait " ("impl ".toList ++ name) = false :=
    startsWith_of_head?_ne (a := 't') rfl (by simp)
  -- there is one space only
  have hfor : contains " for " ("impl ".toList ++ name) = false := by
    rw [contains_eq_false_iff]
    intro hi
    have hcount := hi.count_le ' '
    rw [List.count_append, List.count_eq_zero.2 hspace] at hcount
    revert hcount
    decide
  have hgenerics : contains "impl<" ("impl ".toList ++ name) = false := by
    rw [contains_eq_false_iff]
    intro hi
    rcases List.mem_append.1 (hi.subset (show '<' ∈ "impl<".toList by decide)) with hm | hm
    · revert hm
      decide
    · exact h.not_open hm
  have himpl : contains "impl " ("impl ".toList ++ name) = true :=
    contains_iff.2 (List.prefix_append _ _).isInfix
  have honce : ¬ "impl ".toList <:+: name := fun hi => hspace (hi.subset (by decide))
  unfold Contracts.headerOwner? owner? ownerOfTrimmed?
  simp only [hline, hspells, Bool.false_eq_true, if_false]
  rw [dropUnsafe_dropVisibility (by rw [hhead]; decide) (by rw [hhead]; decide), htrait, hfor,
    hgenerics, himpl, if_neg Bool.false_ne_true, if_neg Bool.false_ne_true,
    if_neg Bool.false_ne_true, if_pos rfl, secondField?, cut?_append, Option.map_some,
    firstField_of_not_isInfix honce, Option.map_some, h.bareName_eq]

end IsTypeName

instance (name : Name) : Decidable (IsTypeName name) :=
  decidable_of_iff (name.any isBlank = false ∧ '<' ∉ name ∧ '>' ∉ name ∧ ':' ∉ name ∧
      name ≠ "for".toList)
    ⟨fun h => ⟨h.1, h.2.1, h.2.2.1, h.2.2.2.1, h.2.2.2.2⟩,
      fun h => ⟨h.not_blank, h.not_open, h.not_close, h.not_colon, h.not_for⟩⟩

/-! ## Generic headers -/

/-- The parts of the header of an inherent `impl` with generics. The lists of parameters and
arguments are what stands between their angle brackets. -/
structure GenericImpl where
  isUnsafe : Bool
  params : Line
  name : Name
  args : Option Line
  isName : IsTypeName name

namespace GenericImpl

/-- The header up to the bracket that closes the parameters. -/
def opening (h : GenericImpl) : Line := "impl".toList ++ '<' :: h.params

/-- The header up to the end of the name, without `unsafe`. -/
def front (h : GenericImpl) : Line := h.opening ++ '>' :: ' ' :: h.name

/-- The header from the end of the name on. -/
def rest (h : GenericImpl) : Line :=
  match h.args with
  | some args => '<' :: (args ++ ['>', ' ', '{'])
  | none => [' ', '{']

/-- The header without `unsafe`. -/
def body (h : GenericImpl) : Line := h.front ++ h.rest

/-- The header as a line. -/
def text (h : GenericImpl) : Line := if h.isUnsafe then "unsafe ".toList ++ h.body else h.body

/-- The part of the header in which the name is looked for: `unsafe` is taken off together with
everything from the next `unsafe ` on. -/
def seen (h : GenericImpl) : Line :=
  if h.isUnsafe then strip (firstField "unsafe " h.body) else h.body

/-- Whether the header of an `unsafe impl` is cut within these arguments. -/
def cutsArgs (h : GenericImpl) (args : Line) : Bool := h.isUnsafe && contains "unsafe " args

/-- The part of the arguments in which the name is looked for. -/
def seenArgs (h : GenericImpl) (args : Line) : Line :=
  if h.cutsArgs args then stripRight (firstField "unsafe " args) else args

/-- After `unsafe`, the word with a space behind it does not occur again before the name ends. -/
def IsWhole (h : GenericImpl) : Prop :=
  h.isUnsafe = true →
    ¬ "unsafe ".toList <:+: h.params ∧ (h.args = none → ¬ "unsafe".toList <:+ h.name)

/-- Nothing stands in the way of the name. -/
structure IsReached (h : GenericImpl) : Prop where
  whole : h.IsWhole
  /-- No bracket that closes a list within the parameters, and no arrow, has a space behind it. -/
  closed : ¬ "> ".toList <:+: h.params
  params_for : ¬ " for ".toList <:+: h.params
  args_for : ∀ args ∈ h.args, ¬ " for ".toList <:+: h.seenArgs args

/-- The name is not reached, or it is passed over, and the same word stands where it is looked
for. -/
inductive IsEchoed (h : GenericImpl) : Prop
  | behind_for (stands : StandsAfter " for " h.name h.seen)
  | behind_bracket (no_for : ¬ " for ".toList <:+: h.seen) (inner : "> ".toList <:+: h.params)
      (stands : StandsAfter "> " h.name h.seen)

variable {h : GenericImpl}

/-! ## Words in the parts of a header -/

theorem opening_eq (h : GenericImpl) : h.opening = "impl".toList ++ '<' :: h.params := by
  unfold opening
  rfl

/-- A word without angle brackets occurs in one of the parts between them. -/
theorem isInfix_front_append_iff {w : List Char} (hopen : '<' ∉ w) (hclose : '>' ∉ w)
    (tail : Line) : w <:+: h.front ++ tail ↔
      w <:+: "impl".toList ∨ w <:+: h.params ∨ w <:+: ' ' :: (h.name ++ tail) := by
  have hparts : h.front ++ tail =
      "impl".toList ++ '<' :: (h.params ++ '>' :: (' ' :: (h.name ++ tail))) := by
    simp only [front, opening_eq, List.append_assoc, List.cons_append]
  rw [hparts, isInfix_append_cons_iff hopen, isInfix_append_cons_iff hclose]

theorem not_unsafe_isInfix_name (h : GenericImpl) : ¬ "unsafe ".toList <:+: ' ' :: h.name := by
  intro hi
  rcases List.infix_cons_iff.1 hi with hp | hi
  · exact absurd (List.cons_prefix_cons.1 hp).1 (by decide)
  · exact h.isName.not_space (hi.subset (by decide))

theorem not_unsafe_isInfix_front (hparams : ¬ "unsafe ".toList <:+: h.params) :
    ¬ "unsafe ".toList <:+: h.front := by
  rw [← List.append_nil h.front, isInfix_front_append_iff (by decide) (by decide),
    List.append_nil]
  rintro (hi | hi | hi)
  · revert hi
    decide
  · exact hparams hi
  · exact h.not_unsafe_isInfix_name hi

/-- The header of an `unsafe impl` has no second `unsafe ` if its parts have none. -/
theorem not_unsafe_isInfix_body (hparams : ¬ "unsafe ".toList <:+: h.params)
    (hname : h.args = none → ¬ "unsafe".toList <:+ h.name)
    (hargs : ∀ args ∈ h.args, ¬ "unsafe ".toList <:+: args) : ¬ "unsafe ".toList <:+: h.body := by
  unfold body rest
  cases ha : h.args with
  | none =>
    rw [isInfix_front_append_iff (by decide) (by decide), List.infix_cons_iff]
    rintro (hi | hi | hp | hi)
    · revert hi
      decide
    · exact hparams hi
    · exact absurd (List.cons_prefix_cons.1 hp).1 (by decide)
    · exact hname ha (isSuffix_of_isInfix_space h.isName.not_space hi)
  | some args =>
    rw [isInfix_append_cons_iff (by decide), isInfix_append_cons_iff (by decide)]
    rintro (hi | hi | hi)
    · exact not_unsafe_isInfix_front hparams hi
    · exact hargs args ha hi
    · revert hi
      decide

/-- `for` with spaces around it is not the name of a type. -/
theorem not_for_isInfix_name (h : GenericImpl) :
    ¬ " for ".toList <:+: ' ' :: (h.name ++ [' ', '{']) := by
  have hspace := h.isName.not_space
  rw [List.infix_cons_iff]
  rintro (hp | hi)
  · obtain ⟨t, ht⟩ := hp
    have heq : "for".toList ++ ' ' :: t = h.name ++ ' ' :: ['{'] := by simpa using ht
    have hsame := congrArg (List.takeWhile (· != ' ')) heq
    rw [takeWhile_append_cons (by decide), takeWhile_append_cons hspace] at hsame
    exact h.isName.not_for hsame.symm
  · have hsuffix : " for".toList <:+ h.name := isSuffix_of_isInfix_space hspace hi
    exact hspace (hsuffix.subset (by decide))

/-! ## The part that is seen -/

/-- The header from the end of the name on, as far as it is seen. -/
def seenRest (h : GenericImpl) : Line :=
  match h.args with
  | some args => '<' :: (h.seenArgs args ++ if h.cutsArgs args then [] else ['>', ' ', '{'])
  | none => [' ', '{']

theorem endsName_seenRest (h : GenericImpl) (mark : String) : EndsName mark h.seenRest := by
  right
  unfold seenRest
  cases h.args with
  | none => simp
  | some args => simp

theorem seenRest_eq_rest (hcuts : ∀ args ∈ h.args, h.cutsArgs args = false) :
    h.seenRest = h.rest := by
  unfold seenRest rest
  cases hargs : h.args with
  | none => rfl
  | some args => simp [seenArgs, hcuts args hargs]

/-- There are no blanks around a header. -/
theorem strip_append_body {w : Line} {a : Char} (ha : isBlank a = false)
    (hhead : (w ++ h.body).head? = some a) : strip (w ++ h.body) = w ++ h.body := by
  have hlast : ∃ s, h.body = s ++ '{' :: [] := by
    unfold body rest
    cases h.args with
    | none => exact ⟨h.front ++ [' '], by simp⟩
    | some args => exact ⟨h.front ++ '<' :: (args ++ ['>', ' ']), by simp⟩
  obtain ⟨s, hs⟩ := hlast
  rw [strip_eq_stripRight ha hhead, hs, ← List.append_assoc, stripRight_append_cons (by decide)]
  rfl

theorem strip_body (h : GenericImpl) : strip h.body = h.body :=
  strip_append_body (w := []) (a := 'i') (by decide) rfl

/-- The header is seen up to the name, and behind it nothing but a part of the arguments can be
missing. -/
theorem IsWhole.seen_eq (hwhole : h.IsWhole) : h.seen = h.front ++ h.seenRest := by
  by_cases hcut : ∃ args ∈ h.args, h.cutsArgs args = true
  · obtain ⟨args, hargs, hcut⟩ := hcut
    obtain ⟨hu, hin⟩ := Bool.and_eq_true_iff.1 hcut
    have hfield : firstField "unsafe " h.body = h.front ++ '<' :: firstField "unsafe " args := by
      rw [body, rest, hargs]
      rw [firstField_append_cons (by decide) (not_unsafe_isInfix_front (hwhole hu).1),
        firstField_append_of_isInfix (contains_iff.1 hin)]
    have hhead : (h.front ++ '<' :: firstField "unsafe " args).head? = some 'i' := rfl
    have hrest : h.seenRest = '<' :: stripRight (firstField "unsafe " args) := by
      rw [seenRest, hargs]
      simp [seenArgs, hcut]
    rw [seen, if_pos hu, hfield, strip_eq_stripRight (by decide) hhead,
      stripRight_append_cons (by decide), hrest]
  · have hcuts : ∀ args ∈ h.args, h.cutsArgs args = false := by
      intro args hargs
      rw [Bool.eq_false_iff]
      exact fun hc => hcut ⟨args, hargs, hc⟩
    rw [seenRest_eq_rest hcuts, seen]
    by_cases hu : h.isUnsafe = true
    · have hno : ¬ "unsafe ".toList <:+: h.body := by
        refine not_unsafe_isInfix_body (hwhole hu).1 (hwhole hu).2 fun args hargs hi => ?_
        have hc := hcuts args hargs
        rw [cutsArgs, hu, contains_iff.2 hi] at hc
        cases hc
      rw [if_pos hu, firstField_of_not_isInfix hno, strip_body]
      rfl
    · rw [if_neg hu]
      rfl

/-- ` for ` is seen in the parameters or in the arguments. -/
theorem IsWhole.for_isInfix_seen_iff (hwhole : h.IsWhole) :
    " for ".toList <:+: h.seen ↔
      " for ".toList <:+: h.params ∨ ∃ args ∈ h.args, " for ".toList <:+: h.seenArgs args := by
  have himpl : ¬ " for ".toList <:+: "impl".toList := by decide
  have hname := h.not_for_isInfix_name
  rw [hwhole.seen_eq, isInfix_front_append_iff (by decide) (by decide), or_iff_right himpl]
  refine or_congr_right ?_
  unfold seenRest
  cases h.args with
  | none => simpa using hname
  | some args =>
    have hshort : ¬ " for ".toList <:+: ' ' :: h.name := by
      refine fun hi => hname (hi.trans ?_)
      exact (List.prefix_append (' ' :: h.name) [' ', '{']).isInfix
    have hend : " for ".toList <:+:
        (h.seenArgs args ++ if h.cutsArgs args then [] else ['>', ' ', '{']) ↔
          " for ".toList <:+: h.seenArgs args := by
      cases h.cutsArgs args with
      | true => simp
      | false =>
        have hbrace : ¬ " for ".toList <:+: [' ', '{'] := by decide
        rw [if_neg Bool.false_ne_true, isInfix_append_cons_iff (by decide), or_iff_left hbrace]
    rw [← List.cons_append, isInfix_append_cons_iff (by decide), or_iff_right hshort, hend]
    simp

/-- The first `unsafe ` in the header is behind its first bracket. -/
theorem firstField_body (h : GenericImpl) :
    ∃ r, firstField "unsafe " h.body = "impl<".toList ++ r := by
  have hparts : h.body =
      "impl".toList ++ '<' :: (h.params ++ '>' :: ' ' :: (h.name ++ h.rest)) := by
    simp only [body, front, opening_eq, List.append_assoc, List.cons_append]
  rw [hparts, firstField_append_cons (by decide) (by decide)]
  exact ⟨_, rfl⟩

theorem seen_begins (h : GenericImpl) : ∃ r, h.seen = "impl<".toList ++ r := by
  obtain ⟨r, hr⟩ := h.firstField_body
  unfold seen
  cases h.isUnsafe with
  | false => exact ⟨_, rfl⟩
  | true =>
    have hbracket : "impl<".toList ++ r = "impl".toList ++ '<' :: r := rfl
    rw [if_pos rfl, hr, strip_eq_stripRight (a := 'i') (by decide) rfl, hbracket,
      stripRight_append_cons (by decide)]
    exact ⟨_, rfl⟩

theorem seen_isPrefix (h : GenericImpl) : h.seen <+: h.body := by
  obtain ⟨r, hr⟩ := h.firstField_body
  unfold seen
  cases h.isUnsafe with
  | false => exact List.prefix_rfl
  | true =>
    have hhead : (firstField "unsafe " h.body).head? = some 'i' := by
      rw [hr]
      rfl
    rw [if_pos rfl, strip_eq_stripRight (by decide) hhead]
    exact (stripRight_isPrefix _).trans (isPrefix_firstField "unsafe " h.body)

/-! ## The bracket that closes the parameters -/

theorem not_close_isInfix_opening (hclosed : ¬ "> ".toList <:+: h.params) :
    ¬ "> ".toList <:+: h.opening := by
  rw [opening_eq, isInfix_append_cons_iff (by decide)]
  rintro (hi | hi)
  · revert hi
    decide
  · exact hclosed hi

theorem IsWhole.standsAfter (hwhole : h.IsWhole) (hclosed : ¬ "> ".toList <:+: h.params) :
    StandsAfter "> " h.name h.seen := by
  refine ⟨h.opening, h.seenRest, ?_, h.endsName_seenRest "> "⟩
  have hsplit : h.seen = h.opening ++ '>' :: ' ' :: (h.name ++ h.seenRest) := by
    simp [hwhole.seen_eq, front]
  rw [hsplit]
  exact firstAt_close (not_close_isInfix_opening hclosed) _

/-- A name behind the first bracket that can close the parameters is seen as a whole. -/
theorem length_front_le (hclosed : ¬ "> ".toList <:+: h.params)
    (hstands : StandsAfter "> " h.name h.seen) : h.front.length ≤ h.seen.length := by
  obtain ⟨before, after, hfirst, -⟩ := hstands
  obtain ⟨t, ht⟩ := h.seen_isPrefix
  have hbody : h.opening ++ '>' :: ' ' :: (h.name ++ h.rest) =
      before ++ "> ".toList ++ (h.name ++ after ++ t) := by
    have heq := ht.symm
    rw [hfirst.eq] at heq
    simpa [body, front] using heq
  have hle := (firstAt_close (not_close_isInfix_opening hclosed) _).first _ _ hbody
  have hlength := congrArg List.length hfirst.eq
  simp only [List.length_append] at hlength
  simp only [front, List.length_append, List.length_cons]
  have htwo : "> ".toList.length = 2 := rfl
  omega

theorem length_seen_le (hu : h.isUnsafe = true) {a b : Line}
    (hbody : h.body = a ++ "unsafe ".toList ++ b) : h.seen.length ≤ a.length := by
  rw [seen, if_pos hu]
  exact Nat.le_trans (strip_isInfix _).length_le (length_firstField_le hbody)

theorem isWhole_of_standsAfter (hclosed : ¬ "> ".toList <:+: h.params)
    (hstands : StandsAfter "> " h.name h.seen) : h.IsWhole := by
  have hfront := length_front_le hclosed hstands
  intro hu
  constructor
  · rintro ⟨a, b, hab⟩
    have hbody : h.body = ("impl<".toList ++ a) ++ "unsafe ".toList ++
        (b ++ '>' :: ' ' :: (h.name ++ h.rest)) := by
      simp [body, front, opening_eq, ← hab]
    have hseen := length_seen_le hu hbody
    simp only [front, opening_eq, ← hab, List.length_append, List.length_cons] at hfront hseen
    have hfive : "impl<".toList.length = "impl".toList.length + 1 := rfl
    omega
  · rintro hargs ⟨w, hw⟩
    have hbody : h.body = (h.opening ++ '>' :: ' ' :: w) ++ "unsafe ".toList ++ ['{'] := by
      simp [body, front, rest, hargs, ← hw]
    have hseen := length_seen_le hu hbody
    simp only [front, ← hw, List.length_append, List.length_cons] at hfront hseen
    have hsix : "unsafe".toList.length = 6 := rfl
    omega

theorem isReached_iff : h.IsReached ↔ ¬ " for ".toList <:+: h.seen ∧
    ¬ "> ".toList <:+: h.params ∧ StandsAfter "> " h.name h.seen := by
  constructor
  · intro hr
    refine ⟨fun hi => ?_, hr.closed, hr.whole.standsAfter hr.closed⟩
    rcases hr.whole.for_isInfix_seen_iff.1 hi with hi | ⟨args, hargs, hi⟩
    · exact hr.params_for hi
    · exact hr.args_for args hargs hi
  · rintro ⟨hfor, hclosed, hstands⟩
    have hwhole := isWhole_of_standsAfter hclosed hstands
    rw [hwhole.for_isInfix_seen_iff, not_or] at hfor
    exact ⟨hwhole, hclosed, hfor.1, fun args hargs hi => hfor.2 ⟨args, hargs, hi⟩⟩

/-! ## The name that is read -/

theorem dropUnsafe_dropVisibility_text (h : GenericImpl) :
    dropUnsafe (dropVisibility h.text) = h.seen := by
  unfold text seen
  cases h.isUnsafe with
  | false =>
    have hhead : (strip h.body).head? = some 'i' := head?_strip (by decide) rfl
    rw [if_neg Bool.false_ne_true, if_neg Bool.false_ne_true]
    exact dropUnsafe_dropVisibility (by rw [hhead]; decide) (by rw [hhead]; decide)
  | true =>
    have hstrip : strip ("unsafe ".toList ++ h.body) = "unsafe ".toList ++ h.body :=
      strip_append_body (a := 'u') (by decide) rfl
    have hstart : startsWith "unsafe " ("unsafe ".toList ++ h.body) = true :=
      List.isPrefixOf_iff_prefix.2 (List.prefix_append _ _)
    rw [if_pos rfl, if_pos rfl, dropVisibility_of_head?_ne hstrip (by simp), dropUnsafe, dropWord,
      hstrip, if_pos hstart, secondField?, cut?_append, Option.map_some, Option.getD_some]

/-- In a header with generics the name is looked for behind ` for `, or else behind the first
bracket with a space behind it. -/
theorem owner?_text_eq_some_iff (h : GenericImpl) : owner? h.text = some h.name ↔
    StandsAfter " for " h.name h.seen ∨
      ¬ " for ".toList <:+: h.seen ∧ StandsAfter "> " h.name h.seen := by
  have hends := h.isName.endsBareName_of_mem
  obtain ⟨r, hr⟩ := h.seen_begins
  have htrait : ¬ startsWith "trait " h.seen = true := by
    rw [startsWith_of_head?_ne (a := 't') rfl (by simp [hr])]
    decide
  have himpl : contains "impl<" h.seen = true := contains_iff.2 ⟨[], r, hr.symm⟩
  rw [owner?, dropUnsafe_dropVisibility_text, ownerOfTrimmed?, if_neg htrait]
  by_cases hfor : contains " for " h.seen = true
  · rw [if_pos hfor, map_bareName_secondField?_eq_some_iff rfl h.isName.not_space hends]
    exact ⟨.inl, fun hs => hs.resolve_right fun hn => hn.1 (contains_iff.1 hfor)⟩
  · have hno : ¬ " for ".toList <:+: h.seen := fun hi => hfor (contains_iff.2 hi)
    rw [if_neg hfor, if_pos himpl,
      map_bareName_secondField?_eq_some_iff rfl h.isName.not_close hends]
    exact ⟨fun hs => .inr ⟨hno, hs⟩, fun hs => (hs.resolve_left fun hf => hno hf.isInfix).2⟩

end GenericImpl

/-- The name of a generic `impl` is read off its header exactly when nothing in the header stands in
its way, or the same word stands where the name is looked for. A block that is headed by the name
alone always has it as its owner. -/
theorem owner_of_generic_iff (h : GenericImpl) :
    (∀ line, strip line = h.name → Contracts.headerOwner? line = some h.name) ∧
      (owner? h.text = some h.name ↔ h.IsReached ∨ h.IsEchoed) := by
  refine ⟨fun line => h.isName.headerOwner?_eq, ?_⟩
  rw [h.owner?_text_eq_some_iff, GenericImpl.isReached_iff]
  constructor
  · rintro (hs | ⟨hfor, hs⟩)
    · exact .inr (.behind_for hs)
    · by_cases hinner : "> ".toList <:+: h.params
      · exact .inr (.behind_bracket hfor hinner hs)
      · exact .inl ⟨hfor, hinner, hs⟩
  · rintro (⟨hfor, -, hs⟩ | hs | ⟨hfor, -, hs⟩)
    · exact .inr ⟨hfor, hs⟩
    · exact .inl hs
    · exact .inr ⟨hfor, hs⟩

-- the return type of a bound is taken for the name, and is the same word
example : owner? "impl<F: Fn() -> Wrap> Wrap<F> \x7b".toList = some "Wrap".toList := by
  decide +kernel

/-- A bound with an associated type and another bound behind it. -/
def iteratorBound : GenericImpl where
  isUnsafe := false
  params := "T, I: Iterator<Item = T> + Clone".toList
  name := "Wrap".toList
  args := some "I".toList
  isName := by decide

/-- A bound with an arrow. -/
def callBound : GenericImpl where
  isUnsafe := false
  params := "A, B, F: Fn(A) -> B".toList
  name := "Wrap".toList
  args := some "A, B, F".toList
  isName := by decide

/-- A closing bracket within the parameters and an arrow are taken for their end. -/
theorem owner_of_generic_stops_early :
    iteratorBound.text = "impl<T, I: Iterator<Item = T> + Clone> Wrap<I> \x7b".toList ∧
      owner? iteratorBound.text = some "+".toList ∧
      callBound.text = "impl<A, B, F: Fn(A) -> B> Wrap<A, B, F> \x7b".toList ∧
      owner? callBound.text = some "B".toList ∧
      Contracts.headerOwner? "Wrap\n".toList = some "Wrap".toList := by
  decide +kernel

end Covenant.Header
