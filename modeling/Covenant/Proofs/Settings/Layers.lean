import Covenant.Proofs.Settings.CommandLine
import Covenant.Proofs.World.Effect
import Covenant.Settings.Load

/-!
# Command line, settings file, settings before

A setting is what the command line gives for it, else what the settings file has, else what it was
(`Layered`). There is one exception: the target directory of the command line is taken as the source
directory, and nothing on a command line sets the target directory. `configureFrom_layered` says
that a command line that is accepted, with a settings file that loads, leads to these settings, with
which the log is opened.
-/

namespace Covenant

/-- The text of an entry that is one. -/
def Entry.text? : Entry → Option String
  | .text s => some s
  | .bare | .empty => none

/-- The world with other settings. -/
def World.withSettings (w : World) (s : Settings) : World := { w with settings := s }

namespace Settings

open Text CommandLine Effect

/-! ## What a settings file has -/

/-- The value of a key in a settings file, if the key is there; the value may be missing. -/
def valueIn (d : Ini.Document) (key : String) : Option (Option String) :=
  match d.get? sectionName key.toList with
  | .ok v => v.map fun v => v.map String.ofList
  | .error _ => none

/-- The text of a key in a settings file. -/
def textIn (d : Ini.Document) (key : String) : Option String := (valueIn d key).join

/-- The settings with those of a file in their place. The files are not placed yet. -/
def withFile (home : String) (d : Ini.Document) (s : Settings) : Settings where
  files := ((textIn d "files_to_annotate").map filesIn).getD s.files
  workerModel := ((valueIn d "worker_model").map Entry.ofOption).getD s.workerModel
  arbiterModel := ((valueIn d "arbiter_model").map Entry.ofOption).getD s.arbiterModel
  promptDir := ((textIn d "prompt_dir").map (asDirectory home)).getD s.promptDir
  targetDir := ((textIn d "target_dir").map (asDirectory home)).getD s.targetDir
  sourceDir := ((textIn d "source_dir").map (asDirectory home)).getD s.sourceDir
  replaceSource := ((textIn d "update_source").map isTrue).getD s.replaceSource
  wantHarnesses := ((textIn d "gen_harnesses").map isTrue).getD s.wantHarnesses
  wantInvariants := ((textIn d "gen_type_invariants").map isTrue).getD s.wantInvariants
  checkCompile := ((textIn d "try_compile").map isTrue).getD s.checkCompile
  workerRegion := (valueIn d "worker_region").getD s.workerRegion
  arbiterRegion := (valueIn d "arbiter_region").getD s.arbiterRegion
  verbose := ((textIn d "verbose").map isTrue).getD s.verbose

/-- The settings with a new value in one place, if there is one. The place is read by `get` and
changed by `put`. -/
def revise {α : Type} (get : Settings → α) (put : α → Settings → Settings) (x : Option α)
    (s : Settings) : Settings :=
  put (x.getD (get s)) s

section Take

variable {α β : Type} {w w' : World} {d : Ini.Document} {key : String} {b : β} {k : Unit → Effect β}

theorem takeOption_bind_eq_ok (get : Settings → α) (put : α → Settings → Settings)
    (value : Option String → α) (hput : ∀ s, put (get s) s = s)
    (h : (takeOption d key (fun v s => put (value v) s) >>= k) w = .ok b w') :
    k () (w.withSettings (revise get put ((valueIn d key).map value) w.settings)) = .ok b w' := by
  obtain ⟨_, v, hv, h⟩ := bind_eq_ok_iff.1 h
  unfold takeOption at hv
  unfold valueIn
  cases hd : d.get? sectionName key.toList with
  | error f =>
    rw [hd] at hv
    exact absurd hv fail_ne_ok
  | ok x =>
    rw [hd] at hv
    cases x with
    | none =>
      obtain ⟨-, rfl⟩ := pure_eq_ok_iff.1 hv
      show k () (w.withSettings (put (get w.settings) w.settings)) = _
      rwa [hput]
    | some x =>
      cases hv
      exact h

theorem takeValue_bind_eq_ok (get : Settings → α) (put : α → Settings → Settings)
    (value : String → α) (hput : ∀ s, put (get s) s = s)
    (h : (takeValue d key (fun v s => put (value v) s) >>= k) w = .ok b w') :
    k () (w.withSettings (revise get put ((textIn d key).map value) w.settings)) = .ok b w' := by
  obtain ⟨_, v, hv, h⟩ := bind_eq_ok_iff.1 h
  unfold takeValue at hv
  unfold textIn valueIn
  cases hd : d.get? sectionName key.toList with
  | error f =>
    rw [hd] at hv
    exact absurd hv fail_ne_ok
  | ok x =>
    rw [hd] at hv
    cases x with
    | none =>
      obtain ⟨-, rfl⟩ := pure_eq_ok_iff.1 hv
      show k () (w.withSettings (put (get w.settings) w.settings)) = _
      rwa [hput]
    | some x =>
      cases x with
      | none => exact absurd hv fail_ne_ok
      | some x =>
        cases hv
        exact h

end Take

/-- What taking a settings file does. -/
theorem takeDocument_eq_ok {d : Ini.Document} {w w' : World} {u : Unit}
    (h : takeDocument d w = .ok u w') :
    w' = w.withSettings (w.settings.withFile w.home d).settle := by
  rw [takeDocument, get_bind_apply] at h
  have h := takeValue_bind_eq_ok files (fun x s => { s with files := x }) filesIn (fun _ => rfl) h
  have h := takeOption_bind_eq_ok workerModel (fun x s => { s with workerModel := x })
    Entry.ofOption (fun _ => rfl) h
  have h := takeOption_bind_eq_ok arbiterModel (fun x s => { s with arbiterModel := x })
    Entry.ofOption (fun _ => rfl) h
  have h := takeValue_bind_eq_ok promptDir (fun x s => { s with promptDir := x })
    (asDirectory w.home) (fun _ => rfl) h
  have h := takeValue_bind_eq_ok targetDir (fun x s => { s with targetDir := x })
    (asDirectory w.home) (fun _ => rfl) h
  have h := takeValue_bind_eq_ok sourceDir (fun x s => { s with sourceDir := x })
    (asDirectory w.home) (fun _ => rfl) h
  have h := takeValue_bind_eq_ok replaceSource (fun x s => { s with replaceSource := x }) isTrue
    (fun _ => rfl) h
  have h := takeValue_bind_eq_ok wantHarnesses (fun x s => { s with wantHarnesses := x }) isTrue
    (fun _ => rfl) h
  have h := takeValue_bind_eq_ok wantInvariants (fun x s => { s with wantInvariants := x }) isTrue
    (fun _ => rfl) h
  have h := takeValue_bind_eq_ok checkCompile (fun x s => { s with checkCompile := x }) isTrue
    (fun _ => rfl) h
  have h := takeOption_bind_eq_ok workerRegion (fun x s => { s with workerRegion := x }) id
    (fun _ => rfl) h
  have h := takeOption_bind_eq_ok arbiterRegion (fun x s => { s with arbiterRegion := x }) id
    (fun _ => rfl) h
  have h := takeValue_bind_eq_ok verbose (fun x s => { s with verbose := x }) isTrue
    (fun _ => rfl) h
  cases h
  simp only [World.withSettings, revise, withFile, Option.map_id_fun, id_eq]

/-! ## The settings file -/

/-- The settings file that a command line names, if any, is read as the document. -/
inductive Loads (w : World) : Option Entry → Option Ini.Document → Prop
  | nothing : Loads w none none
  | file {path text : String} {d : Ini.Document} (hload : w.disk.load path = .ok (.text text))
      (hparse : Ini.parse sectionName (unifyNewlines text.toList) = .ok d) :
      Loads w (some (.text path)) (some d)

/-- The settings after a settings file, if there is one. -/
def afterFile (home : String) (s : Settings) : Option Ini.Document → Settings
  | none => s
  | some d => (s.withFile home d).settle

theorem loadFile_eq_ok {path : String} {w w' : World} {u : Unit} (h : loadFile path w = .ok u w') :
    ∃ text d, w.disk.load path = .ok (.text text) ∧
      Ini.parse sectionName (unifyNewlines text.toList) = .ok d ∧
      w' = w.withSettings (w.settings.withFile w.home d).settle := by
  rw [loadFile, get_bind_apply] at h
  cases hr : w.disk.load path with
  | error f =>
    rw [hr] at h
    cases f with
    | missing p =>
      obtain ⟨_, v, -, h⟩ := bind_eq_ok_iff.1 h
      cases h
    | _ => exact absurd h fail_ne_ok
  | ok content =>
    rw [hr] at h
    obtain ⟨chars, v, hv, h⟩ := bind_eq_ok_iff.1 h
    obtain ⟨hchars, rfl⟩ := decode_eq_ok_iff.1 hv
    obtain ⟨text, rfl, rfl⟩ := chars?_eq_some_iff.1 hchars
    cases hp : Ini.parse sectionName (unifyNewlines text.toList) with
    | error f =>
      rw [hp] at h
      exact absurd h fail_ne_ok
    | ok d =>
      rw [hp] at h
      exact ⟨text, d, rfl, hp, takeDocument_eq_ok h⟩

theorem loadEntry_eq_ok {e : Option Entry} (hne : e ≠ some (.text "")) {w w' : World} {u : Unit}
    (h : loadEntry (e.getD (.text "")) w = .ok u w') :
    ∃ file, Loads w e file ∧ w' = w.withSettings (w.settings.afterFile w.home file) := by
  cases e with
  | none =>
    obtain ⟨-, rfl⟩ := pure_eq_ok_iff.1 h
    exact ⟨none, .nothing, rfl⟩
  | some e =>
    cases e with
    | bare => exact absurd h fail_ne_ok
    | empty => exact absurd h fail_ne_ok
    | text path =>
      have hpath : path ≠ "" := fun hp => hne (by rw [hp])
      rw [Option.getD_some, loadEntry, if_neg hpath] at h
      obtain ⟨text, d, hload, hparse, rfl⟩ := loadFile_eq_ok h
      exact ⟨some d, .file hload hparse, rfl⟩

/-! ## The command line -/

/-- The text that is given for a switch. -/
def givenText (digits : DigitTable) (arguments : List String) (s : Switch) : Option String :=
  (given digits arguments s).bind Entry.text?

/-- The switches whose value has to be a text. -/
def textSwitches : List Switch := [.files, .target, .source]

/-- The settings with those of a command line in their place. -/
def withArguments (host : Host) (arguments : List String) (s : Settings) : Settings :=
  { s with
    files := ((givenText host.digits arguments .files).map filesIn).getD s.files
    workerModel := (given host.digits arguments .workerModel).getD s.workerModel
    arbiterModel := (given host.digits arguments .arbiterModel).getD s.arbiterModel
    sourceDir := ((givenText host.digits arguments .source).map (asDirectory host.home)).getD
      (((givenText host.digits arguments .target).map (asDirectory host.home)).getD s.sourceDir)
    replaceSource := isSet host.digits arguments .update || s.replaceSource
    wantHarnesses := isSet host.digits arguments .proof || s.wantHarnesses
    checkCompile := isSet host.digits arguments .kani || s.checkCompile
    verbose := isSet host.digits arguments .verbose || s.verbose }

section Override

variable {α β : Type} {w : World} {digits : DigitTable} {arguments : List String} {s : Switch}
  {e : Entry} (he : e = (given digits arguments s).getD (.text ""))

include he

theorem overrideName_bind (get : Settings → Entry) (put : Entry → Settings → Settings)
    (hput : ∀ s, put (get s) s = s) (k : Unit → Effect β) :
    (overrideName e put >>= k) w =
      k () (w.withSettings (revise get put (given digits arguments s) w.settings)) := by
  unfold overrideName
  cases hg : given digits arguments s with
  | none =>
    rw [he, hg, Option.getD_none, if_pos rfl]
    show k () w = k () (w.withSettings (put (get w.settings) w.settings))
    rw [hput]
    rfl
  | some v =>
    have hv : v ≠ .text "" := fun h => given_ne_empty_text digits arguments s (by rw [hg, h])
    rw [he, hg, Option.getD_some, if_neg hv]
    rfl

theorem overrideText_bind (get : Settings → α) (put : α → Settings → Settings)
    (value : String → α) (hput : ∀ s, put (get s) s = s)
    (hempty : given digits arguments s ≠ some .empty) (k : Unit → Effect β) :
    (overrideText e (fun v s => put (value v) s) >>= k) w =
      k () (w.withSettings
        (revise get put ((givenText digits arguments s).map value) w.settings)) := by
  unfold overrideText givenText
  cases hg : given digits arguments s with
  | none =>
    rw [he, hg, Option.getD_none]
    show k () w = k () (w.withSettings (put (get w.settings) w.settings))
    rw [hput]
    rfl
  | some v =>
    rw [he, hg, Option.getD_some]
    cases v with
    | bare => exact absurd hg (given_ne_bare digits arguments s)
    | empty => exact absurd hg hempty
    | text t =>
      have ht : t ≠ "" := fun h => given_ne_empty_text digits arguments s (by rw [hg, h])
      show ((if t = "" then pure () else modifySettings (put (value t))) >>= k) w = _
      rw [if_neg ht]
      rfl

theorem overrideText_of_empty (hempty : given digits arguments s = some .empty)
    (f : String → Settings → Settings) : overrideText e f w = .error (.fault .unset) w := by
  rw [he, hempty]
  rfl

end Override

section Unset

variable {α β : Type} {x : Effect α} {k : α → Effect β}

/-- The operation stops everywhere because something has no value. -/
def FailsUnset (x : Effect α) : Prop := ∀ w, ∃ w', x w = .error (.fault .unset) w'

/-- The operation returns, or something has no value. -/
def OrUnset (x : Effect α) : Prop :=
  ∀ w, (∃ a w', x w = .ok a w') ∨ ∃ w', x w = .error (.fault .unset) w'

theorem FailsUnset.bind_left (h : FailsUnset x) : FailsUnset (x >>= k) := fun w =>
  let ⟨w', hw'⟩ := h w
  ⟨w', bind_of_error hw'⟩

theorem FailsUnset.bind_right (hx : OrUnset x) (h : ∀ a, FailsUnset (k a)) :
    FailsUnset (x >>= k) := by
  intro w
  obtain ⟨a, v, hv⟩ | ⟨v, hv⟩ := hx w
  · obtain ⟨w', hw'⟩ := h a v
    exact ⟨w', (bind_of_ok hv k).trans hw'⟩
  · exact ⟨v, bind_of_error hv⟩

theorem overrideText_orUnset (e : Entry) (f : String → Settings → Settings) :
    OrUnset (overrideText e f) := by
  intro w
  cases e with
  | text t =>
    left
    show ∃ a w', (if t = "" then pure () else modifySettings (f t) : Effect Unit) w = .ok a w'
    split <;> exact ⟨_, _, rfl⟩
  | bare => exact .inr ⟨w, rfl⟩
  | empty => exact .inr ⟨w, rfl⟩

theorem overrideName_orUnset (e : Entry) (f : Entry → Settings → Settings) :
    OrUnset (overrideName e f) := by
  intro w
  left
  unfold overrideName
  split <;> exact ⟨_, _, rfl⟩

end Unset

section Configure

variable {arguments : List String} {a : Arguments} {w w₁ : World}
  (hparse : CommandLine.parse w.digits arguments = .run a)
  (hload : loadEntry a.config w = .ok () w₁)

include hparse in
theorem getD_ofFlag {s : Switch} (hs : s.takesValue = false) (hh : s ≠ .help) (x : Bool) :
    (ofFlag (a.flag s)).getD x = (isSet w.digits arguments s || x) := by
  rw [flag_parse hparse hs hh]
  cases isSet w.digits arguments s <;> rfl

include hparse in
theorem overrideFlags_ofArguments (s : Settings) :
    s.overrideFlags (Overrides.ofArguments a) =
      { s with
        replaceSource := isSet w.digits arguments .update || s.replaceSource
        wantHarnesses := isSet w.digits arguments .proof || s.wantHarnesses
        checkCompile := isSet w.digits arguments .kani || s.checkCompile
        verbose := isSet w.digits arguments .verbose || s.verbose } := by
  unfold overrideFlags Overrides.ofArguments
  rw [← getD_ofFlag hparse (s := .update) rfl (by decide),
    ← getD_ofFlag hparse (s := .proof) rfl (by decide),
    ← getD_ofFlag hparse (s := .kani) rfl (by decide),
    ← getD_ofFlag hparse (s := .verbose) rfl (by decide)]
  rfl

include hparse in
theorem configureFrom_eq_configure :
    configureFrom arguments w = configure (Overrides.ofArguments a) w := by
  rw [configureFrom, get_bind_apply, hparse]

include hparse hload

/-- What taking a command line does after its settings file has been taken. -/
theorem configureFrom_apply (htext : ∀ s ∈ textSwitches, given w.digits arguments s ≠ some .empty) :
    configureFrom arguments w =
      openLog (w₁.withSettings (w₁.settings.withArguments w.toHost arguments).settle) := by
  have hentry {s : Switch} (hs : s.takesValue = true) := entry_parse hparse hs
  rw [configureFrom_eq_configure hparse, configure, get_bind_apply]
  refine (bind_of_ok hload _).trans ?_
  refine (overrideText_bind (hentry (s := .files) rfl) files (fun x s => { s with files := x })
    filesIn (fun _ => rfl) (htext .files (by simp [textSwitches])) _).trans ?_
  refine (overrideName_bind (hentry (s := .workerModel) rfl) workerModel
    (fun x s => { s with workerModel := x }) (fun _ => rfl) _).trans ?_
  refine (overrideName_bind (hentry (s := .arbiterModel) rfl) arbiterModel
    (fun x s => { s with arbiterModel := x }) (fun _ => rfl) _).trans ?_
  refine (overrideText_bind (hentry (s := .target) rfl) sourceDir
    (fun x s => { s with sourceDir := x }) (asDirectory w.home) (fun _ => rfl)
    (htext .target (by simp [textSwitches])) _).trans ?_
  refine (overrideText_bind (hentry (s := .source) rfl) sourceDir
    (fun x s => { s with sourceDir := x }) (asDirectory w.home) (fun _ => rfl)
    (htext .source (by simp [textSwitches])) _).trans ?_
  show openLog (World.withSettings _ (settle (overrideFlags _ _))) = _
  rw [overrideFlags_ofArguments hparse]
  simp only [World.withSettings, revise, withArguments]

/-- A switch that has an empty list where a text has to be stops the run. -/
theorem configureFrom_of_empty
    (hempty : ∃ s ∈ textSwitches, given w.digits arguments s = some .empty) :
    ∃ w', configureFrom arguments w = .error (.fault .unset) w' := by
  have hentry {s : Switch} (hs : s.takesValue = true) := entry_parse hparse hs
  obtain ⟨s, hs, hg⟩ := hempty
  have hfails {s : Switch} (hs : s.takesValue = true)
      (hg : given w.digits arguments s = some .empty) (f : String → Settings → Settings) :
      FailsUnset (overrideText (a.entry s) f) :=
    fun w => ⟨w, overrideText_of_empty (hentry hs) hg f⟩
  rw [configureFrom_eq_configure hparse, configure, get_bind_apply]
  have hrest (k : Unit → Effect Unit) (hk : FailsUnset (k ())) :
      ∃ w', (loadEntry a.config >>= k) w = .error (.fault .unset) w' := by
    obtain ⟨w', hw'⟩ := hk w₁
    exact ⟨w', (bind_of_ok hload k).trans hw'⟩
  refine hrest _ ?_
  simp only [textSwitches, List.mem_cons, List.not_mem_nil, or_false] at hs
  obtain rfl | rfl | rfl := hs
  · exact (hfails (s := .files) rfl hg _).bind_left
  · refine .bind_right (overrideText_orUnset _ _) fun _ => ?_
    refine .bind_right (overrideName_orUnset _ _) fun _ => ?_
    refine .bind_right (overrideName_orUnset _ _) fun _ => ?_
    refine .bind_right (overrideText_orUnset _ _) fun _ => ?_
    exact (hfails (s := .target) rfl hg _).bind_left
  · refine .bind_right (overrideText_orUnset _ _) fun _ => ?_
    refine .bind_right (overrideName_orUnset _ _) fun _ => ?_
    refine .bind_right (overrideName_orUnset _ _) fun _ => ?_
    refine .bind_right (overrideText_orUnset _ _) fun _ => ?_
    refine .bind_right (overrideText_orUnset _ _) fun _ => ?_
    exact (hfails (s := .source) rfl hg _).bind_left

end Configure

/-! ## The layers -/

/-- The text of a key in the settings file, if there is one. -/
def fileText (file : Option Ini.Document) (key : String) : Option String :=
  file.bind (textIn · key)

/-- The value of a key in the settings file, if there is one. -/
def fileValue (file : Option Ini.Document) (key : String) : Option (Option String) :=
  file.bind (valueIn · key)

/-- Each setting but the files is what the command line gives for it, else what the settings file
has, else what it was. `source` and `target` are what the command line gives for the two
directories. -/
structure Layered (host : Host) (source target : Option String) (arguments : List String)
    (file : Option Ini.Document) (before after : Settings) : Prop where
  workerModel : after.workerModel = ((given host.digits arguments .workerModel).or
    ((fileValue file "worker_model").map Entry.ofOption)).getD before.workerModel
  arbiterModel : after.arbiterModel = ((given host.digits arguments .arbiterModel).or
    ((fileValue file "arbiter_model").map Entry.ofOption)).getD before.arbiterModel
  sourceDir : after.sourceDir =
    ((source.or (fileText file "source_dir")).map (asDirectory host.home)).getD before.sourceDir
  targetDir : after.targetDir =
    ((target.or (fileText file "target_dir")).map (asDirectory host.home)).getD before.targetDir
  replaceSource : after.replaceSource = (isSet host.digits arguments .update ||
    ((fileText file "update_source").map isTrue).getD before.replaceSource)
  wantHarnesses : after.wantHarnesses = (isSet host.digits arguments .proof ||
    ((fileText file "gen_harnesses").map isTrue).getD before.wantHarnesses)
  checkCompile : after.checkCompile = (isSet host.digits arguments .kani ||
    ((fileText file "try_compile").map isTrue).getD before.checkCompile)
  verbose : after.verbose = (isSet host.digits arguments .verbose ||
    ((fileText file "verbose").map isTrue).getD before.verbose)
  promptDir : after.promptDir =
    ((fileText file "prompt_dir").map (asDirectory host.home)).getD before.promptDir
  wantInvariants : after.wantInvariants =
    ((fileText file "gen_type_invariants").map isTrue).getD before.wantInvariants
  workerRegion : after.workerRegion = (fileValue file "worker_region").getD before.workerRegion
  arbiterRegion : after.arbiterRegion = (fileValue file "arbiter_region").getD before.arbiterRegion

/-- The settings after a settings file and a command line. -/
def configured (host : Host) (arguments : List String) (file : Option Ini.Document)
    (s : Settings) : Settings :=
  ((s.afterFile host.home file).withArguments host arguments).settle

theorem layered_configured (host : Host) (arguments : List String) (file : Option Ini.Document)
    (s : Settings) :
    Layered host
      ((givenText host.digits arguments .source).or (givenText host.digits arguments .target)) none
      arguments file s (s.configured host arguments file) := by
  cases file with
  | none =>
    constructor <;>
      simp only [configured, settle, withArguments, afterFile, fileText, fileValue,
        Option.bind_none, Option.map_none, Option.or_none, Option.getD_none, Option.getD_or,
        Option.map_or]
  | some d =>
    constructor <;>
      simp only [configured, settle, withArguments, afterFile, withFile, fileText, fileValue,
        Option.bind_some, Option.getD_or, Option.map_or, Option.none_or]

/-- Taking an accepted command line, with a settings file that loads. -/
theorem configureFrom_eq_configured {arguments : List String} {a : Arguments} {w w₁ : World}
    (hparse : CommandLine.parse w.digits arguments = .run a)
    (hload : loadEntry a.config w = .ok () w₁)
    (htext : ∀ s ∈ textSwitches, given w.digits arguments s ≠ some .empty) :
    ∃ file, Loads w (given w.digits arguments .config) file ∧
      configureFrom arguments w =
        openLog (w.withSettings (w.settings.configured w.toHost arguments file)) := by
  have hrun := configureFrom_apply hparse hload htext
  have hconfig : a.config = (given w.digits arguments .config).getD (.text "") :=
    entry_parse hparse (s := .config) rfl
  rw [hconfig] at hload
  obtain ⟨file, hfile, rfl⟩ :=
    loadEntry_eq_ok (given_ne_empty_text w.digits arguments .config) hload
  exact ⟨file, hfile, hrun⟩

end Settings

end Covenant
