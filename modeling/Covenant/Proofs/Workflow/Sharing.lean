import Covenant.Proofs.Settings.Files
import Covenant.Proofs.Text.Field
import Covenant.Proofs.Workflow.Frame

/-!
# Files whose drafts meet

The drafts of a file are named after its path below the source directory, up to the first dot
anywhere in it and with dashes for slashes. Two files have one name exactly when these parts differ
at most in dashes and slashes (`draftNameOf_eq_iff`). Their drafts meet on the disk when they have
one name, and also when one name is the other with the mark of a draft behind it (`shared_iff`).

1. Files that do not meet are worked on apart (`fileAt?_of_apart`).
2. Where the copy of a file goes to a draft of another one, that draft is lost (`brings_overwrite`).
-/

namespace Covenant

open Text Settings

/-! ## Names -/

/-- The texts are the same, except that one may have a dash where the other has a slash. -/
inductive Confused : List Char → List Char → Prop
  | nil : Confused [] []
  | same {s t : List Char} (c : Char) (tail : Confused s t) : Confused (c :: s) (c :: t)
  | slash {s t : List Char} (tail : Confused s t) : Confused ('/' :: s) ('-' :: t)
  | dash {s t : List Char} (tail : Confused s t) : Confused ('-' :: s) ('/' :: t)

/-- With dashes for slashes the texts are one. -/
theorem confused_iff {s t : List Char} :
    (s.map fun c => if c = '/' then '-' else c) = (t.map fun c => if c = '/' then '-' else c) ↔
      Confused s t := by
  constructor
  · intro h
    induction s generalizing t with
    | nil =>
      obtain rfl := List.map_eq_nil_iff.1 h.symm
      exact .nil
    | cons a s ih =>
      cases t with
      | nil => cases h
      | cons b t =>
        obtain ⟨hchar, htail⟩ := List.cons.inj h
        have hrest := ih htail
        dsimp only at hchar
        by_cases ha : a = '/' <;> by_cases hb : b = '/'
        · rw [ha, hb]
          exact .same '/' hrest
        · rw [if_pos ha, if_neg hb] at hchar
          rw [ha, ← hchar]
          exact .slash hrest
        · rw [if_neg ha, if_pos hb] at hchar
          rw [hb, hchar]
          exact .dash hrest
        · rw [if_neg ha, if_neg hb] at hchar
          rw [hchar]
          exact .same b hrest
  · intro h
    induction h with
    | nil => rfl
    | same c tail ih => rw [List.map_cons, List.map_cons, ih]
    | slash tail ih | dash tail ih =>
      rw [List.map_cons, List.map_cons, ih]
      rfl

/-- The part of the file's path that names its drafts: what is below the directory, up to the first
dot. -/
def IsStem (dir file : String) (stem : List Char) : Prop :=
  ∃ below, file.toList = dir.toList ++ below ∧ IsFirstField ".".toList stem below

section Name

variable {dir f g : String} {p q : List Char}

theorem exists_isStem {files : List String} (h : f ∈ placeFiles dir files) :
    ∃ p, IsStem dir f p := by
  obtain ⟨file, -, rfl⟩ := List.mem_map.1 (List.mem_filter.1 h).1
  obtain ⟨below, hbelow⟩ := startsWith_iff.1 (startsWith_placeFile dir file)
  exact ⟨_, below, hbelow.symm, firstField_eq_iff.1 rfl⟩

theorem IsStem.draftNameOf (h : IsStem dir f p) :
    Worker.draftNameOf dir f = String.ofList (p.map fun c => if c = '/' then '-' else c) := by
  obtain ⟨below, hbelow, hfield⟩ := h
  have hstart : startsWith dir f.toList = true := startsWith_iff.2 ⟨below, hbelow.symm⟩
  have hdrop : dropStart dir f.toList = below := by
    rw [dropStart, if_pos hstart, hbelow, List.drop_left]
  rw [Worker.draftNameOf, hdrop, firstField_eq_iff.2 hfield]

theorem draftNameOf_eq_iff (hf : IsStem dir f p) (hg : IsStem dir g q) :
    Worker.draftNameOf dir f = Worker.draftNameOf dir g ↔ Confused p q := by
  rw [hf.draftNameOf, hg.draftNameOf, ← String.toList_inj, String.toList_ofList,
    String.toList_ofList, confused_iff]

end Name

/-! ## Paths -/

/-- What the copy, the contracts, the annotated file and the harnesses end with. -/
def draftEndings : List String := [".rs", "_contracts.rs", "_annotated.rs", "_harnesses.rs"]

/-- The marks of the drafts besides the copy. -/
def draftMarks : List String := ["_contracts", "_annotated", "_harnesses"]

/-- The names are the same, or one is the other with a mark behind it. -/
def Entangled (x y : String) : Prop := x = y ∨ ∃ m ∈ draftMarks, x = y ++ m ∨ y = x ++ m

theorem mem_draftEndings_iff {a : String} :
    a ∈ draftEndings ↔ ∃ m, (m = "" ∨ m ∈ draftMarks) ∧ a = m ++ ".rs" := by
  simp [draftEndings, draftMarks, or_and_right, exists_or]

/-- Different marks are of the same length, so none of them is an end of another. -/
theorem mark_eq_of_append {x y m n : String} (hm : m ∈ draftMarks) (hn : n ∈ draftMarks)
    (h : x ++ m = y ++ n) : m = n := by
  have hlength : ∀ m ∈ draftMarks, m.toList.length = 10 := by decide
  have hlists : x.toList ++ m.toList = y.toList ++ n.toList := by
    simpa using congrArg String.toList h
  have hsame := List.append_inj_right' hlists ((hlength m hm).trans (hlength n hn).symm)
  exact String.toList_inj.1 hsame

theorem exists_ending_eq_iff {x y : String} :
    (∃ a ∈ draftEndings, ∃ b ∈ draftEndings, x ++ a = y ++ b) ↔ Entangled x y := by
  have hcancel (m n : String) : x ++ (m ++ ".rs") = y ++ (n ++ ".rs") ↔ x ++ m = y ++ n := by
    rw [← String.append_assoc, ← String.append_assoc, String.append_left_inj]
  constructor
  · rintro ⟨a, ha, b, hb, h⟩
    obtain ⟨m, hm, rfl⟩ := mem_draftEndings_iff.1 ha
    obtain ⟨n, hn, rfl⟩ := mem_draftEndings_iff.1 hb
    rw [hcancel] at h
    rcases hm with rfl | hm <;> rcases hn with rfl | hn
    · exact .inl ((String.append_left_inj _).1 h)
    · exact .inr ⟨n, hn, .inl (by rwa [String.append_empty] at h)⟩
    · exact .inr ⟨m, hm, .inr (by rwa [String.append_empty, eq_comm] at h)⟩
    · obtain rfl := mark_eq_of_append hm hn h
      exact .inl ((String.append_left_inj _).1 h)
  · have hending {m : String} (hm : m = "" ∨ m ∈ draftMarks) : m ++ ".rs" ∈ draftEndings :=
      mem_draftEndings_iff.2 ⟨m, hm, rfl⟩
    rintro (rfl | ⟨m, hm, rfl | rfl⟩)
    · exact ⟨_, hending (.inl rfl), _, hending (.inl rfl), rfl⟩
    · exact ⟨_, hending (.inl rfl), _, hending (.inr hm), (hcancel _ _).2 String.append_empty⟩
    · exact ⟨_, hending (.inr hm), _, hending (.inl rfl), (hcancel _ _).2 String.append_empty.symm⟩

section Place

variable {st : Settings} {f g a b : String}

theorem isEnding_name (f : String) (ha : a ∈ draftEndings) : Path.IsEnding (st.nameOf f ++ a) := by
  have hendings : ∀ a ∈ draftEndings, Path.IsEnding a := by decide
  obtain ⟨hslash, hne, hlast⟩ := hendings a ha
  have hnil : a.toList ≠ [] := fun h => hne (String.toList_inj.1 h)
  refine ⟨?_, (hendings a ha).append_ne_empty _, ?_⟩
  · rw [String.toList_append, List.mem_append]
    exact fun hm => hm.elim (Worker.draftNameOf_plain st.sourceDir f).1 hslash
  · rwa [String.toList_append, Text.getLast?_append_of_ne_nil hnil]

/-- Drafts are at one place only if their paths are the same. -/
theorem ofPath_draft_eq_iff (ha : a ∈ draftEndings) (hb : b ∈ draftEndings) :
    Location.ofPath (st.draftPath (st.nameOf f) a) =
        Location.ofPath (st.draftPath (st.nameOf g) b) ↔
      st.nameOf f ++ a = st.nameOf g ++ b := by
  rw [draftPath, draftPath, String.append_assoc, String.append_assoc]
  constructor
  · intro h
    refine Classical.byContradiction fun hne => ?_
    exact Location.ofPath_append_ne (isEnding_name f ha) (isEnding_name g hb) hne h
  · intro h
    rw [h]

/-- The drafts of the files meet somewhere. -/
def Shared (st : Settings) (f g : String) : Prop :=
  ∃ a ∈ draftEndings, ∃ b ∈ draftEndings,
    Location.ofPath (st.draftPath (st.nameOf f) a) = Location.ofPath (st.draftPath (st.nameOf g) b)

theorem shared_iff : Shared st f g ↔ Entangled (st.nameOf f) (st.nameOf g) := by
  rw [← exists_ending_eq_iff]
  constructor
  · rintro ⟨a, ha, b, hb, h⟩
    exact ⟨a, ha, b, hb, (ofPath_draft_eq_iff ha hb).1 h⟩
  · rintro ⟨a, ha, b, hb, h⟩
    exact ⟨a, ha, b, hb, (ofPath_draft_eq_iff ha hb).2 h⟩

/-- No draft is in a directory at the path of an annotated file. -/
theorem ofPath_draft_ne_within (ha : a ∈ draftEndings) :
    Location.ofPath (st.draftPath (st.nameOf f) a) ≠
      Location.ofPath (st.targetDir ++ st.nameOf g ++ "_annotated.rs" ++ "/" ++
        Path.base (st.targetDir ++ st.nameOf g ++ ".rs")) := by
  have hannotated : Path.IsEnding (st.nameOf g ++ "_annotated.rs") := isEnding_name g (by decide)
  obtain ⟨l, z, hplace⟩ := Location.exists_ofPath_append st.targetDir
  rw [Location.ofPath_within ((show Path.IsEnding "_annotated.rs" by decide).append_ne_empty _)
    (Path.isEnding_base (by decide)), draftPath, String.append_assoc, String.append_assoc,
    hplace _ (isEnding_name f ha), hplace _ hannotated]
  intro h
  have hlength := congrArg (·.names.length) h
  simp [Location.child] at hlength

/-- No draft is the log. -/
theorem ofPath_draft_ne_log (ha : a ∈ draftEndings) :
    Location.ofPath (st.draftPath (st.nameOf f) a) ≠ Location.ofPath logName := by
  have hall : ∀ a ∈ draftEndings, Path.IsEnding a ∧ a.toList.getLast? ≠ some 'g' := by decide
  obtain ⟨hending, hlast⟩ := hall a ha
  have hne := Location.ofPath_append_ne_of_getLast? (p := st.targetDir ++ st.nameOf f) (q := "")
    hending (show Path.IsEnding logName by decide) hlast
  rwa [String.empty_append] at hne

end Place

/-! ## Work on another file -/

/-- A checkout of the file leaves what is at the location as it is. -/
def Tools.Spares (tools : Tools) (directory file : String) (l : Location) : Prop :=
  ∀ d, (tools.git directory file d).fileAt? l = d.fileAt? l

namespace Workflow

open Crew

/-- Events in the frame of a file leave the drafts of every file alone that it does not meet, unless
one of these is the file itself. -/
theorem fileAt?_of_inFrame {f g a : String} {R : Prop} {w v : World}
    (hapart : ¬ Shared w.settings f g) (ha : a ∈ draftEndings)
    (hself : Location.ofPath (w.settings.draftPath (w.settings.nameOf f) a) ≠ Location.ofPath g)
    (hframe : w.Leads (Event.InFrame w.settings g R) v) :
    v.disk.fileAt? (Location.ofPath (w.settings.draftPath (w.settings.nameOf f) a)) =
      w.disk.fileAt? (Location.ofPath (w.settings.draftPath (w.settings.nameOf f) a)) := by
  refine Classical.byContradiction fun hchanged => ?_
  have hlog : w.logFile? ≠ some (Location.ofPath (w.settings.draftPath (w.settings.nameOf f) a)) :=
    fun h => ofPath_draft_ne_log ha (World.logFile?_eq_some_iff.1 h).2
  obtain ⟨es, -, hes, hd⟩ := hframe.events
  obtain ⟨path, c, hm, hloc⟩ := hd.exists_write hlog hchanged
  have hplace := Disk.locate_eq_ofPath hloc
  rcases hes _ hm path c rfl with hdraft | ⟨rfl, -⟩
  · rcases ofPath_draft hdraft hloc with ⟨b, hb, hpath⟩ | ⟨-, hpath⟩
    · exact hapart ⟨a, ha, b, hb, hplace.trans hpath⟩
    · exact ofPath_draft_ne_within ha (hplace.trans hpath)
  · exact hself hplace

/-- The work on a file leaves the drafts of other files alone, as far as a checkout does. -/
theorem fileAt?_of_apart {f g a : String} {crew crew' : Crew} {w w' : World} {r : Except Stop Unit}
    (hapart : ¬ Shared w.settings f g) (hrun : (processFile g).runOn crew w = (r, crew', w'))
    (ha : a ∈ draftEndings)
    (hself : Location.ofPath (w.settings.draftPath (w.settings.nameOf f) a) ≠ Location.ofPath g)
    (hgit : w.tools.Spares w.settings.sourceDir g
      (Location.ofPath (w.settings.draftPath (w.settings.nameOf f) a))) :
    w'.disk.fileAt? (Location.ofPath (w.settings.draftPath (w.settings.nameOf f) a)) =
      w.disk.fileAt? (Location.ofPath (w.settings.draftPath (w.settings.nameOf f) a)) := by
  have hframe : Framed w.settings g (MayReplace g crew w) w w' :=
    Act.of_runOn (T := fun _ => Framed w.settings g (MayReplace g crew w) w)
      (ends_processFile_framed g crew w) hrun
  rcases hframe with hv | ⟨v, hv, rfl⟩
  · exact fileAt?_of_inFrame hapart ha hself hv
  · rw [← fileAt?_of_inFrame hapart ha hself hv, ← hgit v.disk, ← hv.tools]
    rfl

end Workflow

/-! ## Copies over drafts -/

namespace Worker

variable {α : Type} {st : Settings} {file text : String}

/-- The worker has taken on the file, with this text. -/
structure OnHand (st : Settings) (file text : String) (s : Scene Worker) : Prop where
  settings : s.world.settings = st
  draftName : s.focus.draftName = some (st.nameOf file)
  source : s.focus.source = some text

theorem brings_onHand {e : Effect α} (he : e.Leads fun _ => True) :
    Brings (OnHand st file text) (fun _ => OnHand st file text) (fun _ _ => True) (Act.lift e) := by
  intro s hs
  refine Act.ends_lift.2 ((he s.world).mono (fun _ v hv => ?_) fun _ _ _ => trivial)
  exact ⟨hv.settings.trans hs.settings, hs.draftName, hs.source⟩

theorem brings_take_onHand (file : String) :
    Brings (fun s => s.world.settings = st) (fun _ s => ∃ text, OnHand st file text s)
      (fun _ _ => True) (take file) := by
  have hnamed : Brings (fun s : Scene Worker => s.world.settings = st ∧
      s.focus.draftName = some (st.nameOf file)) (fun _ s => s.world.settings = st ∧
      s.focus.draftName = some (st.nameOf file)) (fun _ _ => True)
      (Act.lift (sourceText file)) := fun s hs =>
    Act.ends_lift.2 ((leads_sourceText trivial s.world).mono
      (fun _ v (hv : s.world.Leads (fun _ => True) v) => ⟨hv.settings.trans hs.1, hs.2⟩)
      fun _ _ _ => trivial)
  refine .value_bind (fun s hs => Act.settings_apply hs) (.bind
    (Q := fun _ s => s.world.settings = st ∧ s.focus.draftName = some (st.nameOf file))
    (fun s hs => ⟨hs, rfl⟩) fun _ => hnamed.bind fun text => ?_)
  refine .bind (Q := fun _ => OnHand st file text) (fun s hs => ⟨hs.1, hs.2, rfl⟩) fun _ => ?_
  exact (brings_onHand (Effect.leads_record trivial fun _ => rfl)).mono (fun _ => id)
    (fun _ _ hs => ⟨text, hs⟩) fun _ _ _ => trivial

/-- After the copy is made, the text of the file is at its path. -/
theorem brings_storeSource_onHand :
    Brings (OnHand st file text) (fun _ s => s.focus.source = some text ∧
      s.world.disk.read (st.draftPath (st.nameOf file) ".rs") = .ok (.text text))
      (fun _ _ => True) storeSource := by
  refine .value_bind (fun s hs => hs.settings ▸ draftPath_apply hs.draftName ".rs") ?_
  refine (brings_onHand (Effect.leads_remark _)).bind fun _ => ?_
  refine .value_bind (fun s hs => Act.settings_apply hs.settings) ?_
  refine (brings_onHand (Effect.leads_makeDirectory _)).bind fun _ => ?_
  refine (brings_onHand (Effect.leads_writeText trivial)).bind fun _ => ?_
  refine .value_bind (fun s hs => need_apply hs.source) fun s hs => ?_
  refine Act.ends_lift.2 (Effect.ends_writeText (fun d hd => ?_) fun _ => trivial)
  exact ⟨hs.source, Disk.read_write_self hd⟩

theorem brings_overwrite (file : String) :
    Brings (fun s => s.world.settings = st) (fun _ s => ∃ text, s.focus.source = some text ∧
      s.world.disk.read (st.draftPath (st.nameOf file) ".rs") = .ok (.text text))
      (fun _ _ => True) (take file >>= fun _ => storeSource) := by
  refine (brings_take_onHand file).bind fun _ => ?_
  rintro s ⟨text, hs⟩
  exact (brings_storeSource_onHand s hs).mono (fun _ _ ht => ⟨text, ht⟩) fun _ _ _ => trivial

end Worker

/-! ## Files of the settings -/

namespace Workflow

open Worker

/-- Two files under the source directory have one name for their drafts exactly when their paths
below it, up to the first dot, differ at most in dashes and slashes, and drafts of theirs are at one
place exactly when one name is the other, perhaps with a mark behind it. Otherwise the work on one
file leaves the drafts of the other alone, unless it is one of these or a checkout of it does not
spare them. But where the copy of a file has the path of a draft of the other, its text is found in
place of that draft. -/
theorem drafts_meet_iff {st : Settings} {files : List String} {f g : String}
    (hf : f ∈ placeFiles st.sourceDir files) (hg : g ∈ placeFiles st.sourceDir files) :
    ∃ p q, IsStem st.sourceDir f p ∧ IsStem st.sourceDir g q ∧
      (st.nameOf f = st.nameOf g ↔ Confused p q) ∧
      (Shared st f g ↔ Entangled (st.nameOf f) (st.nameOf g)) ∧
      (¬ Shared st f g → ∀ {crew crew' : Crew} {w w' : World} {r : Except Stop Unit},
        w.settings = st → (processFile g).runOn crew w = (r, crew', w') →
        ∀ a ∈ draftEndings, Location.ofPath (st.draftPath (st.nameOf f) a) ≠ Location.ofPath g →
          w.tools.Spares st.sourceDir g (Location.ofPath (st.draftPath (st.nameOf f) a)) →
          w'.disk.fileAt? (Location.ofPath (st.draftPath (st.nameOf f) a)) =
            w.disk.fileAt? (Location.ofPath (st.draftPath (st.nameOf f) a))) ∧
      ∀ a ∈ draftEndings, st.draftPath (st.nameOf f) a = st.draftPath (st.nameOf g) ".rs" →
        ∀ {wk wk' : Worker} {w w' : World}, w.settings = st →
          (take g >>= fun _ => storeSource).runOn wk w = (.ok (), wk', w') →
          ∃ text, wk'.source = some text ∧
            w'.disk.read (st.draftPath (st.nameOf f) a) = .ok (.text text) := by
  obtain ⟨p, hp⟩ := exists_isStem hf
  obtain ⟨q, hq⟩ := exists_isStem hg
  refine ⟨p, q, hp, hq, draftNameOf_eq_iff hp hq, shared_iff, ?_, ?_⟩
  · rintro hapart crew crew' w w' r rfl hrun a ha hself hgit
    exact fileAt?_of_apart hapart hrun ha hself hgit
  · rintro a - hpath wk wk' w w' rfl hrun
    have hends := brings_overwrite g ⟨wk, w⟩ rfl
    have hread := Act.of_runOn_result (T := fun r (wk' : Worker) w' => r = .ok () →
      ∃ text, wk'.source = some text ∧
        w'.disk.read (w.settings.draftPath (w.settings.nameOf g) ".rs") = .ok (.text text))
      (hends.mono (fun _ _ ht _ => ht) fun _ _ _ hr => by cases hr) hrun
    rw [hpath]
    exact hread rfl

/-- The settings with the sources in `src`. -/
def inSrc : Settings := { Settings.default with sourceDir := "src/" }

/-- The copy of the second file is the annotated file of the first one. -/
theorem drafts_meet_iff_marked :
    "src/x.rs" ∈ placeFiles inSrc.sourceDir ["x.rs", "x_annotated.rs"] ∧
      "src/x_annotated.rs" ∈ placeFiles inSrc.sourceDir ["x.rs", "x_annotated.rs"] ∧
      inSrc.nameOf "src/x.rs" ≠ inSrc.nameOf "src/x_annotated.rs" ∧
      Shared inSrc "src/x.rs" "src/x_annotated.rs" := by
  have hf : "src/x.rs" ∈ placeFiles inSrc.sourceDir ["x.rs", "x_annotated.rs"] := by decide +kernel
  have hg : "src/x_annotated.rs" ∈ placeFiles inSrc.sourceDir ["x.rs", "x_annotated.rs"] := by
    decide +kernel
  obtain ⟨p, q, -, -, -, hshared, -⟩ := drafts_meet_iff hf hg
  exact ⟨hf, hg, by decide +kernel,
    hshared.2 (.inr ⟨"_annotated", by decide, .inr (by decide +kernel)⟩)⟩

/-- A slash is taken for a dash, and the dot of a directory for the end of a name. -/
theorem drafts_meet_alike :
    placeFiles inSrc.sourceDir ["a/b.rs", "a-b.rs", "v1.0/c.rs", "v1.0/d.rs"] =
        ["src/a/b.rs", "src/a-b.rs", "src/v1.0/c.rs", "src/v1.0/d.rs"] ∧
      inSrc.nameOf "src/a/b.rs" = "a-b" ∧ inSrc.nameOf "src/a-b.rs" = "a-b" ∧
      inSrc.nameOf "src/v1.0/c.rs" = "v1" ∧ inSrc.nameOf "src/v1.0/d.rs" = "v1" := by
  decide +kernel

end Workflow

end Covenant
