import Covenant.Proofs.Workflow.Naming
import Covenant.Proofs.Workflow.Replacement

/-!
# What the work on a file changes

Nothing but the drafts of a file, the file itself and the log is written. The file is changed only
if the settings want it and its last contracts have a good grade (`processFile_changes`). Where
there is a directory at the path of the annotated file, a copy of the source can be put into it. A
checkout of the file, if there is one, comes last.
-/

namespace Covenant

open Conversation Crew

/-! ## Directories on the way -/

namespace Disk

/-- A name that is followed by another one leads to a directory. -/
theorem walk_within {d : Disk} {here l : Location} {init : List String} {name e : String}
    (hname : name ≠ "." ∧ name ≠ "..") (h : d.walk here (init ++ [name, e]) = .ok l) :
    ∃ m, d.walk here (init ++ [name]) = .ok m ∧ d.node? m = some .directory := by
  induction init generalizing here with
  | nil =>
    obtain ⟨hopen, there, hpass, -⟩ := walk_cons_iff.1 h
    cases hpass with
    | dot h => exact absurd h hname.1
    | up h => exact absurd h hname.2
    | child _ hdir =>
      refine ⟨here.child name, walk_cons_iff.2 ⟨hopen, _, .child hname ?_, rfl⟩, ?_⟩
      · exact fun hmore => absurd rfl hmore
      · exact (hdir (List.cons_ne_nil _ _)).2
  | cons first init ih =>
    obtain ⟨hopen, there, hpass, hrest⟩ := walk_cons_iff.1 h
    obtain ⟨m, hm, hdir⟩ := ih hrest
    refine ⟨m, walk_cons_iff.2 ⟨hopen, there, ?_, hm⟩, hdir⟩
    cases hpass with
    | dot h => exact .dot h
    | up h => exact .up h
    | child h hdir => exact .child h fun _ => hdir (by simp)

theorem Followable.of_append {a b : String} (h : Followable (a ++ b)) (ha : a ≠ "") :
    Followable a where
  zeroByte hzero := by
    refine h.zeroByte ?_
    simp only [hasZeroByte, List.elem_eq_mem, decide_eq_true_iff, String.toList_append,
      List.mem_append] at hzero ⊢
    exact .inl hzero
  ne_empty := ha
  length hle := by
    refine h.length (Nat.le_trans hle ?_)
    rw [String.utf8ByteSize_append]
    exact Nat.le_add_right _ _

/-- A path can be followed beyond an ending only if there is a directory. -/
theorem hasDirectory_of_locate_within {d : Disk} {q ending e : String} {l : Location}
    (hending : Path.IsEnding ending) (he : Path.IsEnding e)
    (h : d.locate (q ++ ending ++ "/" ++ e) = .ok l) : d.hasDirectory (q ++ ending) = true := by
  obtain ⟨init, last, hnames⟩ := Path.exists_names_append q
  have hbase : Base.ofPath (q ++ ending ++ "/" ++ e) = Base.ofPath (q ++ ending) := by
    unfold Base.ofPath
    rw [Path.isRooted_within (hending.append_ne_empty q)]
  obtain ⟨hpath, hwalk⟩ := locate_eq_ok_iff.1 h
  rw [Path.names_within _ _ he, hnames ending hending, hbase, List.append_assoc] at hwalk
  obtain ⟨m, hm, hdir⟩ := walk_within (hending.append_ne_dots last) hwalk
  have hloc : d.locate (q ++ ending) = .ok m := by
    rw [locate_eq_ok_iff, hnames ending hending]
    rw [String.append_assoc] at hpath
    exact ⟨hpath.of_append (hending.append_ne_empty q), hm⟩
  rw [hasDirectory, lookup, hloc]
  dsimp only
  rw [hdir]

end Disk

/-! ## The frame -/

namespace Workflow

/-- The draft of contracts for the file ends with grade `g`, the last one that is given for it. -/
def DraftGraded (file : String) (crew : Crew) (w : World) (g : Int) : Prop :=
  ∃ crew' w' es text, (draft file).runOn crew w = (.ok g, crew', w') ∧
    w'.trace.events = w.trace.events ++ es ∧ (grades es).getLast? = some (text, g)

/-- What has to hold for the file to be changed. -/
structure MayReplace (file : String) (crew : Crew) (w : World) : Prop where
  onDisk : isOnWeb file = false
  wanted : w.settings.replaceSource = true
  graded : ∃ g, 4 ≤ g ∧ DraftGraded file crew w g

end Workflow

/-- The event writes drafts of the file, or the file itself if `R` holds. -/
def Event.InFrame (st : Settings) (file : String) (R : Prop) (e : Event) : Prop :=
  ∀ path c, e = .write path c → path ∈ st.drafts file ∨ (path = file ∧ R)

/-- The events since `w₀` are in the frame of the file, and a checkout of it may come last. -/
def Framed (st : Settings) (file : String) (R : Prop) (w₀ w : World) : Prop :=
  w₀.Leads (Event.InFrame st file R) w ∨
    ∃ v, w₀.Leads (Event.InFrame st file R) v ∧ w = v.checkedOut st.sourceDir file

section

variable {st : Settings} {file : String} {R : Prop} {w₀ : World}

theorem Event.IsDraft.inFrame {e : Event} (h : e.IsDraft st file) : e.InFrame st file R :=
  fun path c he => .inl (h path c he)

theorem Drafting.inFrame {w : World} (h : Drafting st file w₀ w) :
    w₀.Leads (Event.InFrame st file R) w := h.mono fun _ => Event.IsDraft.inFrame

theorem Drafting.framed {w : World} (h : Drafting st file w₀ w) : Framed st file R w₀ w :=
  .inl h.inFrame

theorem Saved.drafting {s : Scene Crew} (h : Saved st file w₀ s) :
    Act.At st (Has (st.nameOf file) fun _ => True) (Drafting st file w₀) s := by
  rcases h with h | h
  · exact ⟨h.settings, h.focus, h.world.1⟩
  · exact ⟨h.settings, ⟨h.focus.1, trivial⟩, early_drafting h.world⟩

/-- A checkout that changes nothing can be left out. -/
theorem Framed.exists_evolves {w : World} (h : Framed st file R w₀ w)
    (hgit : ∀ d, w₀.tools.git st.sourceDir file d = d) :
    ∃ es, (∀ e ∈ es, e.InFrame st file R) ∧ w₀.disk.Evolves w₀.logFile? es w.disk := by
  rcases h with h | ⟨v, h, rfl⟩
  · obtain ⟨es, -, hes, hd⟩ := h.events
    exact ⟨es, hes, hd⟩
  · obtain ⟨es, -, hes, hd⟩ := h.events
    have hdisk : (v.checkedOut st.sourceDir file).disk = v.disk := by
      rw [World.checkedOut, h.tools, hgit]
    exact ⟨es, hes, hdisk ▸ hd⟩

theorem brings_replaceSource_framed
    (hR : Workflow.isOnWeb file = false → st.replaceSource = true → R) :
    Brings (Saved st file w₀) (fun _ s => Framed st file R w₀ s.world)
      (fun _ s => Framed st file R w₀ s.world) (Workflow.replaceSource file) := by
  have hcopy (hweb : Workflow.isOnWeb file = false) (hwant : st.replaceSource = true) :
      (Effect.copyOnto (st.annotatedPath file) file).Leads (Event.InFrame st file R) := by
    refine Effect.leads_copyOnto fun c path c' he => .inr ?_
    obtain ⟨rfl, -⟩ := Event.write.inj he
    exact ⟨rfl, hR hweb hwant⟩
  have hreplace : Brings (Act.At st (Has (st.nameOf file) fun _ => True) (Drafting st file w₀))
      (fun _ s => Framed st file R w₀ s.world) (fun _ s => Framed st file R w₀ s.world)
      (Workflow.replaceSource file) := by
    have hrevert (w : World) (hw : w₀.Leads (Event.InFrame st file R) w)
        (_ : st.checkCompile = true) : Framed st file R w₀ (w.checkedOut st.sourceDir file) :=
      .inr ⟨w, hw, rfl⟩
    refine brings_replaceSource_reverts (fun h hl => h.trans (hl.mono fun _ => False.elim))
      (fun w hw hweb hwant => ?_) (fun h hl => ?_) hrevert .inl Drafting.framed
    · exact (hcopy hweb hwant w).mono (fun _ _ hl => (Drafting.inFrame hw).trans hl)
        fun _ _ hl => .inl ((Drafting.inFrame hw).trans hl)
    · exact h.trans (hl.mono fun _ he => (isEarly_of_checks he).isDraft.inFrame)
  exact hreplace.mono (fun _ => Saved.drafting) (fun _ _ => id) fun _ _ => id

/-- What follows a draft with grade `grade`. -/
theorem brings_afterDraft {grade : Int}
    (hR : Workflow.isOnWeb file = false → st.replaceSource = true → 4 ≤ grade → R) :
    Brings ((early st file w₀).Drafted grade) (fun _ s => Framed st file R w₀ s.world)
      (fun _ s => Framed st file R w₀ s.world) (do
        if grade < Workflow.passingGrade then
          Effect.remark (Text.Colour.yellow.paint
            "The annotation is not good enough. Skipping the rest")
        else
          byWorker Worker.saveContracts
          if (← Effect.settings).wantHarnesses then Workflow.addHarnesses file
          Workflow.replaceSource file : Act Crew Unit) := by
  refine .ite (fun _ => ?_) fun hgrade => ?_
  · rintro s ⟨text, hs⟩
    exact ((early st file w₀).brings_quiet (Effect.leads_remark _) s hs).mono
      (fun _ _ ht => (early_drafting ht.world).framed) fun _ _ ht => (early_drafting ht).framed
  · have hpass : 4 ≤ grade := Int.not_lt.1 hgrade
    have hreplace : Brings (Saved st file w₀) (fun _ s => Framed st file R w₀ s.world)
        (fun _ s => Framed st file R w₀ s.world) (Workflow.replaceSource file) :=
      brings_replaceSource_framed fun hweb hwant => hR hweb hwant hpass
    refine .bind ((brings_saveContracts_saved hpass).mono (fun _ => id) (fun _ _ => id)
      fun _ _ h => h.framed) fun _ => ?_
    refine .value_bind (fun s hs => Act.settings_apply hs.drafting.settings)
      (.ite (fun _ => ?_) fun _ => hreplace)
    exact .bind (brings_addHarnesses_saved.mono (fun _ => id) (fun _ _ => id)
      fun _ _ h => h.framed) fun _ => hreplace

end

/-! ## The work on a file -/

/-- The content of the file at the location. -/
def Disk.fileAt? (d : Disk) (l : Location) : Option Content :=
  match d.node? l with
  | some (.file c) => some c
  | _ => none

theorem Disk.fileAt?_eq_some_iff {d : Disk} {l : Location} {c : Content} :
    d.fileAt? l = some c ↔ d.node? l = some (.file c) := by
  unfold Disk.fileAt?
  cases d.node? l with
  | none => simp
  | some n => cases n <;> simp

/-- A file that differs after some events was written by one of them, unless it is the log. -/
theorem Disk.Evolves.exists_write {log : Option Location} {d d' : Disk} {es : List Event}
    {l : Location} (h : Evolves log d es d') (hlog : log ≠ some l)
    (hl : d'.fileAt? l ≠ d.fileAt? l) :
    ∃ path c, .write path c ∈ es ∧ d'.locate path = .ok l := by
  refine Classical.byContradiction fun hno => hl (Option.ext fun c => ?_)
  rw [Disk.fileAt?_eq_some_iff, Disk.fileAt?_eq_some_iff]
  exact h.file_iff (fun path c hm hloc => hno ⟨path, c, hm, hloc⟩) hlog

/-- A draft has one of four endings, or is in a directory at the path of the annotated file. -/
theorem ofPath_draft {st : Settings} {file path : String} {d : Disk} {l : Location}
    (hmem : path ∈ st.drafts file) (hloc : d.locate path = .ok l) :
    (∃ ending ∈ [".rs", "_contracts.rs", "_annotated.rs", "_harnesses.rs"],
      Location.ofPath path = Location.ofPath (st.targetDir ++ st.nameOf file ++ ending)) ∨
    (d.hasDirectory (st.targetDir ++ st.nameOf file ++ "_annotated.rs") = true ∧
      Location.ofPath path = Location.ofPath (st.targetDir ++ st.nameOf file ++ "_annotated.rs" ++
        "/" ++ Path.base (st.targetDir ++ st.nameOf file ++ ".rs"))) := by
  simp only [Settings.drafts, List.mem_cons, List.not_mem_nil, or_false] at hmem
  rcases hmem with rfl | rfl | rfl | rfl | hpath
  · exact .inl ⟨".rs", by simp, rfl⟩
  · exact .inl ⟨"_contracts.rs", by simp, rfl⟩
  · exact .inl ⟨"_annotated.rs", by simp, rfl⟩
  · exact .inl ⟨"_harnesses.rs", by simp, rfl⟩
  · have hwithin : Path.join (st.annotatedPath file)
        (Path.base (st.draftPath (st.nameOf file) ".rs")) =
        st.targetDir ++ st.nameOf file ++ "_annotated.rs" ++ "/" ++
          Path.base (st.targetDir ++ st.nameOf file ++ ".rs") := by
      rw [Settings.annotatedPath, Settings.join_draftPath]
      simp [Settings.draftPath, ← String.toList_inj]
    rw [hpath, hwithin] at hloc
    rw [hpath, hwithin]
    exact .inr
      ⟨Disk.hasDirectory_of_locate_within (by decide) (Path.isEnding_base (by decide)) hloc, rfl⟩

namespace Workflow

theorem isAvailable_apply {file : String} (h : isOnWeb file = false) (w : World) :
    isAvailable file w = .ok (w.disk.hasFile file) w := by
  unfold isAvailable
  rw [h]
  rfl

theorem draftGraded_of_drafted {file : String} {crew : Crew} {w : World} {g : Int} {t : Scene Crew}
    (hrun : draft file ⟨crew, w⟩ = .ok g t) (h : (early w.settings file w).Drafted g t) :
    DraftGraded file crew w g := by
  obtain ⟨text, hs⟩ := h
  obtain ⟨es, hes, ⟨gs, -, hgs⟩, -⟩ := hs.world.2
  refine ⟨t.focus, t.world, es, text, ?_, hes, by rw [hgs, List.getLast?_concat]⟩
  rw [Act.runOn, hrun]

/-- The events of the work on a file are in its frame. -/
theorem ends_processFile_framed (file : String) (crew : Crew) (w : World) :
    Ends (processFile file) ⟨crew, w⟩
      (fun _ s => Framed w.settings file (MayReplace file crew w) w s.world)
      fun _ s => Framed w.settings file (MayReplace file crew w) w s.world := by
  have hstart : Act.At w.settings (fun _ : Crew => True)
      ((early w.settings file w).holds (· = [])) ⟨crew, w⟩ :=
    ⟨rfl, trivial, .refl w, .start w rfl⟩
  have hthere : Brings (Act.At w.settings (fun _ : Crew => True)
      ((early w.settings file w).holds (· = [])))
      (fun _ => Act.At w.settings (fun _ => True) ((early w.settings file w).holds (· = [])))
      (fun _ => (early w.settings file w).Open) (Act.lift (isAvailable file)) :=
    (early w.settings file w).brings_step (fun _ => .takes)
      (Act.leads_lift (D := fun _ => True) (leads_isAvailable .fetch) (fun _ _ => id) fun _ => id)
  -- a file on the disk is looked for without a trace
  have hsame : Ends (Act.lift (isAvailable file)) (⟨crew, w⟩ : Scene Crew)
      (fun _ s => isOnWeb file = false → s = ⟨crew, w⟩) fun _ _ => True := by
    refine ends_iff.2 ⟨fun b s hs hweb => ?_, fun _ _ _ => trivial⟩
    rw [Act.lift, isAvailable_apply hweb] at hs
    cases hs
    rfl
  refine ends_bind.2 (((hthere _ hstart).and hsame).mono (fun there s hs => ?_)
    fun _ s hs => (early_drafting hs.1).framed)
  obtain ⟨hs, hlocal⟩ := hs
  refine Brings.ite (K := fun t => t = s) (fun _ => ?_) (fun _ => ?_) s rfl
  · rintro _ rfl
    refine ends_bind.2 (ends_iff.2 ⟨fun grade t hrun => ?_, fun e t hrun => ?_⟩)
    · have hdrafted := ((early w.settings file w).brings_draft _ hs).of_ok hrun
      refine brings_afterDraft (fun hweb hwant hgrade => ⟨hweb, hwant, grade, hgrade, ?_⟩) t
        hdrafted
      rw [hlocal hweb] at hrun
      exact draftGraded_of_drafted hrun hdrafted
    · exact (early_drafting (((early w.settings file w).brings_draft _ hs).of_error hrun)).framed
  · rintro _ rfl
    exact ((early w.settings file w).brings_quiet (Effect.leads_remark _) _ hs).mono
      (fun _ _ ht => (early_drafting ht.world).framed) fun _ _ ht => (early_drafting ht).framed

/-- Whether the work on a file returns or is stopped, what it changes is the log, a draft of the
file, whose name is no path, or the file itself. The file itself is changed only if it is on the
disk, the settings want it and the last contracts have a good grade. If there is a directory at the
path of the annotated file, one of the drafts is a copy of the source in it. -/
theorem processFile_changes {file : String} {crew crew' : Crew} {w w' : World}
    {r : Except Stop Unit} (hrun : (processFile file).runOn crew w = (r, crew', w'))
    (hgit : ∀ d, w.tools.git w.settings.sourceDir file d = d) {l : Location}
    (hchanged : w'.disk.fileAt? l ≠ w.disk.fileAt? l) :
    (w.log = .opened ∧ l = Location.ofPath logName) ∨
    ∃ id, crew'.worker.draftName = some id ∧ '/' ∉ id.toList ∧ '.' ∉ id.toList ∧
      ((∃ ending ∈ [".rs", "_contracts.rs", "_annotated.rs", "_harnesses.rs"],
          l = Location.ofPath (w.settings.targetDir ++ id ++ ending)) ∨
        (l = Location.ofPath file ∧ MayReplace file crew w) ∨
        (w'.disk.hasDirectory (w.settings.targetDir ++ id ++ "_annotated.rs") = true ∧
          l = Location.ofPath (w.settings.targetDir ++ id ++ "_annotated.rs" ++ "/" ++
            Path.base (w.settings.targetDir ++ id ++ ".rs")))) := by
  refine Classical.or_iff_not_imp_left.2 fun hother => ?_
  have hlog : w.logFile? ≠ some l := mt World.logFile?_eq_some_iff.1 hother
  have hframe : Framed w.settings file (MayReplace file crew w) w w' :=
    Act.of_runOn (T := fun _ => Framed w.settings file (MayReplace file crew w) w)
      (ends_processFile_framed file crew w) hrun
  have hnamed : Called (w.settings.nameOf file) ⟨crew', w'⟩ ∨
      w.Leads (fun e => ∀ path, e.written? path = none) w' :=
    Act.of_runOn (T := fun crew' w' => Called (w.settings.nameOf file) ⟨crew', w'⟩ ∨
      w.Leads (fun e => ∀ path, e.written? path = none) w')
      (brings_processFile_named w ⟨crew, w⟩ rfl) hrun
  have hname : crew'.worker.draftName = some (w.settings.nameOf file) := by
    refine hnamed.resolve_right fun hquiet => ?_
    obtain ⟨es, -, hes, hd⟩ := hquiet.events
    obtain ⟨path, c, hm, -⟩ := hd.exists_write hlog hchanged
    simpa [Event.written?] using hes _ hm path
  have hplain := Worker.draftNameOf_plain w.settings.sourceDir file
  refine ⟨w.settings.nameOf file, hname, hplain.1, hplain.2, ?_⟩
  obtain ⟨es, hes, hd⟩ := hframe.exists_evolves hgit
  obtain ⟨path, c, hm, hloc⟩ := hd.exists_write hlog hchanged
  obtain rfl := Disk.locate_eq_ofPath hloc
  rcases hes _ hm path c rfl with hdraft | ⟨rfl, hmay⟩
  · exact (ofPath_draft hdraft hloc).imp_right .inr
  · exact .inr (.inl ⟨rfl, hmay⟩)

/-- The source is changed after contracts with the best grade. -/
theorem processFile_changes_source :
    ∃ r crew' w',
      (processFile "src/a.rs").runOn (contented "_None\n#[requires(true)]\nf\n") withLeftover =
        (r, crew', w') ∧
      w'.disk.fileAt? (Location.ofPath "src/a.rs") ≠
        withLeftover.disk.fileAt? (Location.ofPath "src/a.rs") ∧
      crew'.worker.draftName = some "a" ∧
      MayReplace "src/a.rs" (contented "_None\n#[requires(true)]\nf\n") withLeftover := by
  have heval : (fun run : Except Stop Unit × Crew × World =>
      run.2.2.disk.fileAt? (Location.ofPath "src/a.rs") !=
        withLeftover.disk.fileAt? (Location.ofPath "src/a.rs") &&
      run.2.1.worker.draftName == some "a")
      ((processFile "src/a.rs").runOn (contented "_None\n#[requires(true)]\nf\n") withLeftover) =
      true := by
    decide +kernel
  have hendings : ∀ ending ∈ [".rs", "_contracts.rs", "_annotated.rs", "_harnesses.rs"],
      Location.ofPath "src/a.rs" ≠
        Location.ofPath (withLeftover.settings.targetDir ++ "a" ++ ending) := by
    decide +kernel
  obtain ⟨⟨r, crew', w'⟩, hrun⟩ : ∃ run, (processFile "src/a.rs").runOn
    (contented "_None\n#[requires(true)]\nf\n") withLeftover = run := ⟨_, rfl⟩
  rw [hrun] at heval
  simp only [Bool.and_eq_true, bne_iff_ne, beq_iff_eq] at heval
  refine ⟨r, crew', w', hrun, heval.1, heval.2, ?_⟩
  obtain ⟨hopened, -⟩ | ⟨id, hid, -, -, h⟩ := processFile_changes hrun (fun _ => rfl) heval.1
  · cases hopened
  obtain rfl : id = "a" := Option.some.inj (hid.symm.trans heval.2)
  rcases h with ⟨ending, hending, hl⟩ | ⟨-, hmay⟩ | ⟨-, hl⟩
  · exact absurd hl (hendings ending hending)
  · exact hmay
  · exact absurd hl (by decide +kernel)

/-- A source that is to be annotated, a directory at the path of the annotated file, and a log. -/
def withDirectory : World :=
  { desk { Settings.default with
        sourceDir := "src/"
        wantInvariants := false }
      [("src/a.rs", "fn f() \x7b\x7d\n"), ("target/a_annotated.rs/b.rs", "b\n"),
        ("logger.log", "")] with
    log := .opened }

/-- A copy of the source is put into the directory, and lines are added to the log. -/
theorem processFile_changes_directory :
    ∃ r crew' w', (processFile "src/a.rs").runOn (contented "x") withDirectory = (r, crew', w') ∧
      crew'.worker.draftName = some "a" ∧
      withDirectory.disk.fileAt? (Location.ofPath "target/a_annotated.rs/a.rs") = none ∧
      w'.disk.fileAt? (Location.ofPath "target/a_annotated.rs/a.rs") =
        some (.text "fn f() \x7b\x7d\n") ∧
      w'.disk.fileAt? (Location.ofPath "logger.log") ≠
        withDirectory.disk.fileAt? (Location.ofPath "logger.log") ∧
      ∀ changed ∈ ["target/a_annotated.rs/a.rs", "logger.log"],
        ∀ path ∈ ["target/a.rs", "target/a_contracts.rs", "target/a_annotated.rs",
          "target/a_harnesses.rs", "src/a.rs"],
          Location.ofPath changed ≠ Location.ofPath path := by
  have heval : (fun run : Except Stop Unit × Crew × World =>
      run.2.1.worker.draftName == some "a" &&
      run.2.2.disk.fileAt? (Location.ofPath "target/a_annotated.rs/a.rs") ==
        some (.text "fn f() \x7b\x7d\n") &&
      run.2.2.disk.fileAt? (Location.ofPath "logger.log") !=
        withDirectory.disk.fileAt? (Location.ofPath "logger.log"))
      ((processFile "src/a.rs").runOn (contented "x") withDirectory) = true := by
    decide +kernel
  have hbefore :
      withDirectory.disk.fileAt? (Location.ofPath "target/a_annotated.rs/a.rs") = none := by
    decide +kernel
  obtain ⟨⟨r, crew', w'⟩, hrun⟩ : ∃ run, (processFile "src/a.rs").runOn (contented "x")
    withDirectory = run := ⟨_, rfl⟩
  rw [hrun] at heval
  simp only [Bool.and_eq_true, beq_iff_eq, bne_iff_ne] at heval
  obtain ⟨⟨hname, hcopy⟩, hlog⟩ := heval
  exact ⟨r, crew', w', hrun, hname, hbefore, hcopy, hlog, by decide +kernel⟩

end Workflow

end Covenant
