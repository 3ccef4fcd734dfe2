import Covenant.Proofs.Source.Function
import Covenant.Proofs.Text.Field

/-!
# Headers that name an owner

A name is found by cutting a header at a word that was seen in it, so there is always something to
cut off, with one exception: the generics of an `impl` are taken to end at `> `, which is not looked
for first. A header whose generics do not end so, and that has no ` for `, names no owner
(`ownerOfTrimmed?_eq_none_iff`).
-/

namespace Covenant.Header

open Text

/-! ## Words that are there -/

theorem stripRight_isPrefix (s : List Char) : stripRight s <+: s := by
  rw [← List.reverse_suffix, stripRight, List.reverse_reverse]
  exact List.dropWhile_suffix isBlank

theorem strip_isInfix (l : Line) : strip l <:+: l := by
  have hleft : stripLeft l <:+ l := List.dropWhile_suffix isBlank
  exact (stripRight_isPrefix (stripLeft l)).isInfix.trans hleft.isInfix

/-- A word at the start of a stripped line can be cut off the line. -/
theorem isSome_secondField?_of_startsWith {word : String} {l : Line}
    (h : startsWith word (strip l) = true) : (secondField? word l).isSome = true := by
  rw [isSome_secondField?, contains_iff]
  exact (List.isPrefixOf_iff_prefix.1 h).isInfix.trans (strip_isInfix l)

theorem dropWord_of_head?_ne {word : String} {a : Char} {l : Line}
    (hword : word.toList.head? = some a) (h : (strip l).head? ≠ some a) : dropWord word l = l := by
  rw [dropWord, startsWith_of_head?_ne hword h, if_neg Bool.false_ne_true]

/-- A line that begins neither with a visibility nor with `unsafe` is left as it is. -/
theorem dropUnsafe_dropVisibility {l : Line} (hp : (strip l).head? ≠ some 'p')
    (hu : (strip l).head? ≠ some 'u') : dropUnsafe (dropVisibility l) = l := by
  have hvisibility : dropVisibility l = l := by
    rw [dropVisibility, startsWith_of_head?_ne (by decide) hp, if_neg Bool.false_ne_true,
      startsWith_of_head?_ne (by decide) hp, if_neg Bool.false_ne_true,
      dropWord_of_head?_ne (by decide) hp]
  rw [hvisibility, dropUnsafe, dropWord_of_head?_ne (by decide) hu]

/-! ## Generics -/

/-- The header has generics that do not end on it, and says of no type that it is for it. -/
structure IsUnclosed (l : Line) : Prop where
  not_trait : ¬ "trait ".toList <+: l
  not_for : ¬ " for ".toList <:+: l
  generics : "impl<".toList <:+: l
  not_closed : ¬ "> ".toList <:+: l

theorem ownerOfTrimmed?_eq_none_iff {l : Line} : ownerOfTrimmed? l = none ↔ IsUnclosed l := by
  have hfield : ∀ {word : String}, contains word l = true →
      (secondField? word l).map bareName ≠ none := by
    intro word h
    rw [← isSome_secondField?] at h
    obtain ⟨field, hf⟩ := Option.isSome_iff_exists.1 h
    simp [hf]
  unfold ownerOfTrimmed?
  by_cases htrait : startsWith "trait " l = true
  · rw [if_pos htrait]
    have hprefix := List.isPrefixOf_iff_prefix.1 htrait
    exact ⟨fun h => absurd h (hfield (contains_iff.2 hprefix.isInfix)),
      fun h => absurd hprefix h.not_trait⟩
  rw [if_neg htrait]
  by_cases hfor : contains " for " l = true
  · rw [if_pos hfor]
    exact ⟨fun h => absurd h (hfield hfor), fun h => absurd (contains_iff.1 hfor) h.not_for⟩
  rw [if_neg hfor]
  by_cases hgenerics : contains "impl<" l = true
  · rw [if_pos hgenerics, Option.map_eq_none_iff, ← Option.isNone_iff_eq_none,
      ← Option.not_isSome, isSome_secondField?, Bool.not_eq_true', contains_eq_false_iff]
    refine ⟨fun h => ⟨?_, ?_, contains_iff.1 hgenerics, h⟩, fun h => h.not_closed⟩
    · exact fun h => htrait (List.isPrefixOf_iff_prefix.2 h)
    · exact fun h => hfor (contains_iff.2 h)
  rw [if_neg hgenerics]
  have hno : ¬ IsUnclosed l := fun h => hgenerics (contains_iff.2 h.generics)
  by_cases himpl : contains "impl " l = true
  · rw [if_pos himpl]
    exact ⟨fun h => absurd h (hfield himpl), fun h => absurd h hno⟩
  · rw [if_neg himpl]
    exact ⟨fun h => (Option.some_ne_none _ h).elim, fun h => absurd h hno⟩

/-- The second line of a header always names an owner. -/
theorem owner?_second (line : Line) :
    owner? ("impl<> ".toList ++ strip line) = some (Merge.brokenOwner line) := by
  have hhead : (strip ("impl<> ".toList ++ strip line)).head? = some 'i' :=
    head?_strip (by decide) rfl
  have hsome : owner? ("impl<> ".toList ++ strip line) ≠ none := by
    rw [owner?, dropUnsafe_dropVisibility (by rw [hhead]; decide) (by rw [hhead]; decide),
      Ne, ownerOfTrimmed?_eq_none_iff]
    exact fun h => h.not_closed ⟨"impl<".toList, strip line, rfl⟩
  obtain ⟨owner, howner⟩ := Option.ne_none_iff_exists'.1 hsome
  rw [Merge.brokenOwner, howner]
  rfl

end Covenant.Header

namespace Covenant.Contracts

open Text Header

/-- A block header as an item header, without visibility and `unsafe`. -/
def headerText (l : Line) : Line :=
  dropUnsafe (dropVisibility (if spellsItem (strip l) then strip l else "impl ".toList ++ strip l))

theorem headerOwner?_eq_none_iff {l : Line} :
    headerOwner? l = none ↔ IsUnclosed (headerText l) := by
  rw [headerOwner?, owner?, headerText, ownerOfTrimmed?_eq_none_iff]

end Covenant.Contracts
