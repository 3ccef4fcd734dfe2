import Covenant.Proofs.Settings.Layers

/-!
# Where the files are looked for

The files of a command line are placed under the source directory once. Those of a settings file are
placed twice: under the source directory that the file leads to, and then under the final one
(`configureFrom_files`). The two places come to one exactly for a file that the first place leaves
alone, for two equal directories, and for a file that the root directory only gives the slash that
the second place takes away (`placeFile_placeFile_iff`).
-/

namespace Covenant.Settings

open Text CommandLine Effect

/-! ## One file -/

theorem startsWith_iff {p : String} {s : List Char} : startsWith p s = true ↔ p.toList <+: s :=
  List.isPrefixOf_iff_prefix

theorem not_startsWith_iff {p : String} {s : List Char} :
    startsWith p s = false ↔ ¬ p.toList <+: s := by
  rw [← startsWith_iff, Bool.not_eq_true]

theorem dropStart_slash_cases (s : List Char) :
    startsWith "/" s = false ∧ dropStart "/" s = s ∨ s = '/' :: dropStart "/" s := by
  unfold dropStart
  cases h : startsWith "/" s with
  | false => exact .inl ⟨rfl, if_neg Bool.false_ne_true⟩
  | true =>
    obtain ⟨r, rfl⟩ := startsWith_iff.1 h
    exact .inr rfl

theorem length_dropStart_slash (s : List Char) :
    (dropStart "/" s).length ≤ s.length ∧ s.length ≤ (dropStart "/" s).length + 1 := by
  obtain ⟨-, h⟩ | h := dropStart_slash_cases s
  · rw [h]
    omega
  · have hlength := congrArg List.length h
    rw [List.length_cons] at hlength
    omega

section Place

variable {dir first last file : String}

theorem placeFile_of_startsWith (h : startsWith dir file.toList = true) :
    placeFile dir file = file := if_pos h

theorem toList_placeFile (h : startsWith dir file.toList = false) :
    (placeFile dir file).toList = dir.toList ++ dropStart "/" file.toList := by
  rw [placeFile, if_neg (by rw [h]; exact Bool.false_ne_true), String.toList_append,
    String.toList_ofList]

theorem startsWith_placeFile (dir file : String) :
    startsWith dir (placeFile dir file).toList = true := by
  cases h : startsWith dir file.toList with
  | true => rwa [placeFile_of_startsWith h]
  | false =>
    rw [toList_placeFile h]
    exact startsWith_iff.2 (List.prefix_append _ _)

theorem placeFile_ne_empty (hdir : dir ≠ "") (file : String) : placeFile dir file ≠ "" := by
  intro h
  have hprefix := startsWith_iff.1 (startsWith_placeFile dir file)
  rw [h] at hprefix
  exact hdir (String.toList_inj.1 (List.prefix_nil.1 hprefix))

theorem placeFile_ne_self (h : startsWith dir file.toList = false) : placeFile dir file ≠ file := by
  intro hself
  have hstarts := startsWith_placeFile dir file
  rw [hself, h] at hstarts
  cases hstarts

/-- A slash that is added in front of a file that begins with none is taken away again. -/
theorem toList_placeFile_root (h : startsWith "/" file.toList = false) :
    (placeFile "/" file).toList = '/' :: file.toList := by
  rw [toList_placeFile h, dropStart, if_neg (by rw [h]; exact Bool.false_ne_true)]
  rfl

/-- A file that is placed does not get shorter, even without the slash that it may begin with. -/
theorem length_le_dropStart_placeFile (h : startsWith dir file.toList = false) :
    file.toList.length ≤ (dropStart "/" (placeFile dir file).toList).length := by
  have hplaced := toList_placeFile h
  have hfile := length_dropStart_slash file.toList
  rw [not_startsWith_iff] at h
  cases hdir : dir.toList with
  | nil => exact absurd (hdir ▸ List.nil_prefix) h
  | cons c cs =>
    rw [hdir] at hplaced h
    have hlength := congrArg List.length hplaced
    rw [List.length_append, List.length_cons] at hlength
    obtain ⟨-, hdrop⟩ | hdrop := dropStart_slash_cases (placeFile dir file).toList
    · rw [hdrop]
      omega
    · obtain rfl : c = '/' := (List.cons.inj (hplaced.symm.trans hdrop)).1
      have hrest := congrArg List.length hdrop
      rw [List.length_cons] at hrest
      obtain ⟨-, hkeep⟩ | hslash := dropStart_slash_cases file.toList
      · rw [hkeep] at hlength
        omega
      · -- the directory is not the root, since the file begins with a slash
        have hcs : cs ≠ [] := by
          rintro rfl
          rw [hslash] at h
          exact h (List.cons_prefix_cons.2 ⟨rfl, List.nil_prefix⟩)
        have := List.length_pos_iff.2 hcs
        omega

theorem placeFile_placeFile_ne (hfirst : startsWith first file.toList = false) :
    placeFile last (placeFile first file) ≠ file := by
  cases hlast : startsWith last (placeFile first file).toList with
  | true =>
    rw [placeFile_of_startsWith hlast]
    exact placeFile_ne_self hfirst
  | false =>
    intro h
    have hlength := congrArg List.length (toList_placeFile hlast)
    have hle := length_le_dropStart_placeFile hfirst
    rw [h, List.length_append] at hlength
    have hnil : last.toList = [] := List.length_eq_zero_iff.1 (by omega)
    rw [not_startsWith_iff, hnil] at hlast
    exact hlast List.nil_prefix

theorem toList_dropStart_eq_iff (hfirst : startsWith first file.toList = false) :
    dropStart "/" (placeFile first file).toList = dropStart "/" file.toList ↔ first = "/" := by
  constructor
  · intro h
    have hplaced := toList_placeFile hfirst
    obtain ⟨-, hdrop⟩ | hdrop := dropStart_slash_cases (placeFile first file).toList
    · have hnil : first.toList = [] :=
        List.self_eq_append_left.1 (h.symm.trans (hdrop.trans hplaced))
      rw [not_startsWith_iff, hnil] at hfirst
      exact absurd List.nil_prefix hfirst
    · rw [h, hplaced] at hdrop
      have hslash : first.toList ++ dropStart "/" file.toList =
          ['/'] ++ dropStart "/" file.toList := hdrop
      exact String.toList_inj.1 (List.append_cancel_right hslash)
  · rintro rfl
    have hkeep : dropStart "/" file.toList = file.toList :=
      if_neg (by rw [hfirst]; exact Bool.false_ne_true)
    rw [toList_placeFile_root hfirst]
    exact hkeep.symm

/-- Placing the file under `first` makes no difference to placing it under `last`. -/
def Indifferent (first last file : String) : Prop :=
  startsWith first file.toList = true ∨ first = last ∨
    first = "/" ∧ startsWith last file.toList = false ∧ startsWith last ('/' :: file.toList) = false

theorem placeFile_placeFile_iff :
    placeFile last (placeFile first file) = placeFile last file ↔ Indifferent first last file := by
  unfold Indifferent
  cases hfirst : startsWith first file.toList with
  | true => simp only [placeFile_of_startsWith hfirst, true_or]
  | false =>
    cases hlast : startsWith last file.toList with
    | true =>
      have hne : first ≠ last := by
        rintro rfl
        rw [hfirst] at hlast
        cases hlast
      simp [placeFile_of_startsWith hlast, placeFile_placeFile_ne hfirst, hne]
    | false =>
      have hroot (h : first = "/") : (placeFile first file).toList = '/' :: file.toList := by
        subst h
        exact toList_placeFile_root hfirst
      have hlists := toList_placeFile hlast
      cases hboth : startsWith last (placeFile first file).toList with
      | true =>
        have hslash (h : first = "/") : startsWith last ('/' :: file.toList) = true := by
          rwa [← hroot h]
        rw [placeFile_of_startsWith hboth, ← String.toList_inj, toList_placeFile hfirst, hlists,
          List.append_cancel_right_eq, String.toList_inj]
        grind
      | false =>
        have hne : first ≠ last := by
          rintro rfl
          rw [startsWith_placeFile] at hboth
          cases hboth
        have hslash (h : first = "/") : startsWith last ('/' :: file.toList) = false := by
          rwa [← hroot h]
        rw [← String.toList_inj, toList_placeFile hboth, hlists, List.append_cancel_left_eq,
          toList_dropStart_eq_iff hfirst]
        grind

end Place

/-! ## All the files -/

theorem append_ne_empty {s t : String} (h : s ≠ "" ∨ t ≠ "") : s ++ t ≠ "" := by
  intro hst
  obtain ⟨rfl, rfl⟩ := String.append_eq_empty_iff.1 hst
  obtain h | h := h <;> exact h rfl

theorem asDirectory_ne_empty (home dir : String) : asDirectory home dir ≠ "" := by
  have hslash : ∃ s, (if endsWith "/" dir.toList then dir else dir ++ "/").toList = s ++ ['/'] := by
    split
    · next hend =>
      obtain ⟨s, hs⟩ := List.isSuffixOf_iff_suffix.1 hend
      exact ⟨s, hs.symm⟩
    · exact ⟨dir.toList, String.toList_append⟩
  unfold asDirectory
  generalize (if endsWith "/" dir.toList then dir else dir ++ "/") = d at hslash ⊢
  obtain ⟨s, hs⟩ := hslash
  dsimp only
  split
  · -- the tilde is not the slash at the end
    next htilde =>
    refine append_ne_empty (.inr fun hempty => ?_)
    rw [hs] at htilde hempty
    cases s with
    | nil => exact absurd htilde (by decide)
    | cons c s => simp at hempty
  · rintro rfl
    simp at hs

theorem placeFiles_eq_map {dir : String} (hdir : dir ≠ "") (files : List String) :
    placeFiles dir files = files.map (placeFile dir) := by
  refine List.filter_eq_self.2 fun f hf => ?_
  obtain ⟨x, -, rfl⟩ := List.mem_map.1 hf
  exact bne_iff_ne.2 (placeFile_ne_empty hdir x)

/-- The files that are named: on the command line, else in the settings file. -/
def listed (digits : DigitTable) (arguments : List String) (file : Option Ini.Document) :
    List String :=
  (((givenText digits arguments .files).or (fileText file "files_to_annotate")).map filesIn).getD []

/-- The source directory that a settings file leads to. -/
def fileSource (home : String) (file : Option Ini.Document) : String :=
  ((fileText file "source_dir").map (asDirectory home)).getD Settings.default.sourceDir

theorem fileSource_ne_empty (home : String) (file : Option Ini.Document) :
    fileSource home file ≠ "" := by
  unfold fileSource
  cases fileText file "source_dir" with
  | none => exact (by decide : Settings.default.sourceDir ≠ "")
  | some dir => exact asDirectory_ne_empty _ dir

theorem sourceDir_configured_ne_empty (host : Host) (arguments : List String)
    (file : Option Ini.Document) :
    (Settings.default.configured host arguments file).sourceDir ≠ "" := by
  rw [(layered_configured host arguments file Settings.default).sourceDir]
  cases ((givenText host.digits arguments .source).or (givenText host.digits arguments .target)).or
      (fileText file "source_dir") with
  | none => exact (by decide : Settings.default.sourceDir ≠ "")
  | some dir => exact asDirectory_ne_empty _ dir

/-- The files of a settings file after it has been taken. -/
theorem files_afterFile (home : String) (file : Option Ini.Document) :
    (Settings.default.afterFile home file).files =
      (((fileText file "files_to_annotate").map filesIn).getD []).map
        (placeFile (fileSource home file)) := by
  rw [← placeFiles_eq_map (fileSource_ne_empty home file)]
  cases file <;> rfl

/-- The files after a command line: those of a settings file are placed a second time. -/
theorem files_configured (host : Host) (arguments : List String) (file : Option Ini.Document) :
    let after := Settings.default.configured host arguments file
    after.files = (if (givenText host.digits arguments .files).isSome
      then listed host.digits arguments file
      else (listed host.digits arguments file).map (placeFile (fileSource host.home file))).map
        (placeFile after.sourceDir) := by
  intro after
  rw [← placeFiles_eq_map (sourceDir_configured_ne_empty host arguments file)]
  show placeFiles after.sourceDir (((givenText host.digits arguments .files).map filesIn).getD
    (Settings.default.afterFile host.home file).files) = _
  rw [files_afterFile, listed]
  cases givenText host.digits arguments .files <;> rfl

end Covenant.Settings
