import Covenant.Proofs.World.Differ
import Covenant.Session

/-!
# Annotating over an old file

What was at the path of the output before has no part in what is written there, and neither have the
sweeps of the session before it. The first write to the output is the step that counts
(`agree_annotate`): up to it two runs on disks that differ in the output only do the same and change
nothing, and from it on their disks hold the same. Nothing can fail any more then, unless what was
just written may not be read and written again (`Disk.Reusable`): a copy has the rights of its
source, so the copy of a source that may only be read cannot be added to.
-/

namespace Covenant

open Text

/-- What is written at the output can be used again: it can be read and written, with its own rights
and with those of the source, which it can be given. -/
def Disk.Reusable (d : Disk) (source output : String) : Prop :=
  ∀ l m, d.locate source = .ok l → d.locate output = .ok m →
    (d.mode m).isOwn = true ∧
      ∀ mode ∈ [d.mode m, (d.mode m).withRightsOf (d.mode l)],
        mode.rights.read = true ∧ mode.rights.write = true

namespace Merge

open Effect

variable {w w' : World} {source contracts output : String}

/-! ## Before the first write -/

/-- Two runs are stopped at once for the same reason, or both files are texts. -/
theorem insertContracts_pair (output : String) (hs : w'.disk.load source = w.disk.load source)
    (hc : w'.disk.load contracts = w.disk.load contracts) :
    (∃ e, insertContracts source contracts output w = .error e w ∧
        insertContracts source contracts output w' = .error e w') ∨
      ∃ st ct, w.disk.load source = .ok (.text st) ∧ w.disk.load contracts = .ok (.text ct) := by
  unfold insertContracts
  cases hr : w.disk.load source with
  | error f =>
    exact .inl ⟨_, bind_of_error (openFile_of_error hr),
      bind_of_error (openFile_of_error (hs.trans hr))⟩
  | ok sc =>
    rw [openFile_bind hr, openFile_bind (hs.trans hr)]
    cases hr' : w.disk.load contracts with
    | error f =>
      exact .inl ⟨_, bind_of_error (openFile_of_error hr'),
        bind_of_error (openFile_of_error (hc.trans hr'))⟩
    | ok cc =>
      rw [openFile_bind hr', openFile_bind (hc.trans hr')]
      cases sc with
      | binary bs => exact .inl ⟨_, rfl, rfl⟩
      | text st =>
        rw [decode_bind, decode_bind]
        cases cc with
        | binary bs => exact .inl ⟨_, rfl, rfl⟩
        | text ct => exact .inr ⟨st, ct, rfl, rfl⟩

/-- The worlds are these two. -/
def Unchanged (w w' v v' : World) : Prop := v = w ∧ v' = w'

/-- The test for contracts gives the same answer on both disks. -/
theorem agree_isAnnotatedFile (hs : w'.disk.load source = w.disk.load source)
    (hoption : Path.looksLikeOption source = true →
      LineSearch.succeedsWith w'.disk w'.input source =
        LineSearch.succeedsWith w.disk w.input source) :
    Agree (Unchanged w w') (Unchanged w w') (isAnnotatedFile source w)
      (isAnnotatedFile source w') := by
  rw [isAnnotatedFile, get_bind_apply, get_bind_apply, hs]
  by_cases hz : Disk.hasZeroByte source = true
  · rw [if_pos hz, if_pos hz]
    exact ⟨rfl, rfl, rfl⟩
  rw [if_neg hz, if_neg hz]
  by_cases hm : maxArgumentBytes ≤ source.utf8ByteSize
  · rw [if_pos hm, if_pos hm]
    exact ⟨rfl, rfl, rfl⟩
  rw [if_neg hm, if_neg hm]
  by_cases ho : Path.looksLikeOption source = true
  · rw [if_pos ho, if_pos ho, hoption ho]
    exact ⟨rfl, rfl, rfl⟩
  · rw [if_neg ho, if_neg ho]
    cases w.disk.load source with
    | ok c => exact ⟨rfl, rfl, rfl⟩
    | error f => exact ⟨rfl, rfl, rfl⟩

/-! ## The first write -/

/-- A text has been written at `l`, the place of the output, and nowhere else. It can be read and
written again if it was to be expected. -/
structure Written (source output : String) (w : World) (l : Location) (v : World) : Prop where
  target : w.disk.target output = .ok l
  rewritten : w.disk.Rewritten l v.disk
  rights : w.disk.Reusable source output →
    (v.disk.rights l).read = true ∧ (v.disk.rights l).write = true

theorem Written.put {l : Location} {v u : World} (h : Written source output w l v) (t : String)
    (hu : u.disk = v.disk.put l (.file (.text t))) : Written source output w l u :=
  ⟨h.target, hu ▸ h.rewritten.put t, fun hr => hu ▸ h.rights hr⟩

/-- The same has been written in both worlds. -/
def Begun (source output : String) (w v v' : World) : Prop :=
  v.SameDisk v' ∧ ∃ l, Written source output w l v

/-- Two runs are stopped before anything was written, or because what was written cannot be used
again. -/
def Halted (source output : String) (w w' v v' : World) : Prop :=
  Unchanged w w' v v' ∨ ¬ w.disk.Reusable source output ∧ Begun source output w v v'

theorem begun_put {v v' : World} {st t : String} {l : Location} (h : w.disk.SameBut output w'.disk)
    (hs : w.disk.load source = .ok (.text st)) (hl : w.disk.target output = .ok l)
    (hv : v.disk = w.disk.put l (.file (.text t)))
    (hv' : v'.disk = w'.disk.put l (.file (.text t))) : Begun source output w v v' := by
  obtain ⟨m, hm, -, -⟩ := Disk.read_eq_ok_iff.1 (Disk.read_of_load hs)
  refine ⟨?_, l, hl, hv ▸ Disk.rewritten_put hl t, fun hr => ?_⟩
  · rw [World.SameDisk, hv, hv']
    exact h.put hl _
  · rw [hv]
    exact (hr m l hm (Disk.target_eq_ok hl).1).2 _ List.mem_cons_self

theorem copyOnto_of_ok {d : Disk} {c : Content} (h : w.disk.copyOnto source output = .ok d)
    (hr : d.read output = .ok c) :
    copyOnto source output w = .ok () ({ w with disk := d }.noting (.write output c)) := by
  rw [copyOnto, bind_of_ok (modifyDisk_of_ok h), recordWrite, get_bind_apply, hr]
  rfl

theorem copyOnto_of_error {f : DiskFault} (h : w.disk.copyOnto source output = .error f) :
    copyOnto source output w = .error (.fault (.disk f)) w :=
  bind_of_error (modifyDisk_of_error h)

/-- The copy gets the rights of the source. -/
theorem agree_copyRights {v v' : World} {st : String} {l : Location}
    (h : w.disk.SameBut output w'.disk) (hs : w.disk.load source = .ok (.text st))
    (hl : w.disk.target output = .ok l) (hv : v.disk = w.disk.put l (.file (.text st)))
    (hv' : v'.disk = w'.disk.put l (.file (.text st))) :
    Agree (Begun source output w) (Halted source output w w')
      (modifyDisk (fun d => d.copyRights source output) v)
      (modifyDisk (fun d => d.copyRights source output) v') := by
  have hbegun : Begun source output w v v' := begun_put h hs hl hv hv'
  obtain ⟨k, hk, -, -⟩ := Disk.read_eq_ok_iff.1 (Disk.read_of_load hs)
  obtain ⟨hlocate, -, hn⟩ := Disk.target_eq_ok hl
  have hk' : v.disk.locate source = .ok k := hv ▸ Disk.locate_put hn _ hk
  have hl' : v.disk.locate output = .ok l := hv ▸ Disk.locate_put hn _ hlocate
  have hmode (m : Location) : v.disk.mode m = w.disk.mode m := hv ▸ rfl
  rcases agree_iff.1 (sameDisk_copyRights source output v v' hbegun.1) with
    ⟨a, u, u', hr, hr', hsame⟩ | ⟨e, u, u', hr, hr', hsame⟩
  · rw [hr, hr']
    obtain ⟨k₁, l₁, hk₁, hl₁, hu⟩ := Disk.copyRights_eq_ok (modifyDisk_eq_ok hr)
    obtain rfl := Except.ok.inj (hk'.symm.trans hk₁)
    obtain rfl := Except.ok.inj (hl'.symm.trans hl₁)
    have hrewritten : w.disk.Rewritten l v.disk := hv ▸ Disk.rewritten_put hl st
    refine ⟨rfl, hsame, l, hl, hu ▸ hrewritten.setMode _, fun hreusable => ?_⟩
    rw [hu, Disk.rights, Disk.mode_setMode, hmode, hmode]
    exact (hreusable k l hk hlocate).2 _ (List.mem_cons_of_mem _ List.mem_cons_self)
  · rw [hr, hr']
    have herror : v.disk.copyRights source output ≠ .ok (v.disk.setMode l
        ((v.disk.mode l).withRightsOf (v.disk.mode k))) := by
      intro hok
      rw [modifyDisk_of_ok hok] at hr
      cases hr
    have hdenied : ¬ w.disk.Reusable source output := fun hreusable => herror <| by
      rw [Disk.copyRights, hk', hl']
      exact if_pos (hmode l ▸ (hreusable k l hk hlocate).1)
    -- the disks are as they were before the rights were to be given
    have hends : Ends (modifyDisk fun d => d.copyRights source output) v (fun _ _ => True)
        fun _ u => u = v := ends_modifyDisk (fun _ _ => trivial) fun _ _ => rfl
    obtain rfl := hends.of_error hr
    exact ⟨rfl, .inr ⟨hdenied, hsame, hbegun.2⟩⟩

/-- A source without attributes is copied to the output. -/
theorem agree_copy {st : String} (h : w.disk.SameBut output w'.disk)
    (hs : w.disk.load source = .ok (.text st)) (hs' : w'.disk.load source = .ok (.text st)) :
    Agree (Begun source output w) (Halted source output w w') (copy source output w)
      (copy source output w') := by
  have htarget {v : World} (hd : v.disk.hasDirectory output = false) : copy source output v =
      (copyOnto source output >>= fun _ => modifyDisk fun d => d.copyRights source output) v := by
    rw [copy, get_bind_apply, Disk.copyTarget, hd]
    rfl
  rw [htarget h.hasDirectory, htarget h.hasDirectory']
  rcases h.copyOnto hs hs' with ⟨l, hl, hd, hd'⟩ | ⟨f, hf, hf'⟩
  · rw [bind_of_ok (copyOnto_of_ok hd (Disk.read_put_self hl _)),
      bind_of_ok (copyOnto_of_ok hd' (Disk.read_put_self (h.target.trans hl) _))]
    exact agree_copyRights h hs hl rfl rfl
  · rw [bind_of_error (copyOnto_of_error hf), bind_of_error (copyOnto_of_error hf')]
    exact ⟨rfl, .inl ⟨rfl, rfl⟩⟩

/-! ## From the first write on -/

theorem sameDisk_appendInvariants (source contracts output : String) :
    Mirrors World.SameDisk (appendInvariants source contracts output) :=
  (sameDisk_readText contracts).bind fun _ => .ite
    (fun _ => (sameDisk_appendText output _).bind fun _ => (sameDisk_readText output).bind fun _ =>
      sameDisk_writeText output _)
    fun _ => .pure fun _ _ => id

/-- A text is read if it can be loaded, and nothing is changed. -/
theorem ends_readText (path : String) (w : World) :
    Ends (readText path) w (fun _ u => u = w)
      fun _ u => u = w ∧ ∀ t, w.disk.load path ≠ .ok (.text t) := by
  obtain ⟨t, -, hok⟩ | ⟨hno, x, hx⟩ := readText_cases path w
  · rw [Ends, hok]
  · rw [Ends, hx]
    exact ⟨rfl, hno⟩

section Written

variable {l : Location} {v : World} (h : Written source output w l v)

include h

theorem Written.reopened : v.disk.Reopened output l := h.rewritten.reopened h.target

theorem Written.appendText (s : String) :
    Ends (appendText output s) v (fun _ => Written source output w l)
      fun _ u => ¬ w.disk.Reusable source output ∧ Written source output w l u := by
  refine ends_bind.2 (ends_modifyDisk (fun d hd => ?_) fun x hx => ⟨fun hr => ?_, h⟩)
  · obtain ⟨t, ht⟩ := h.reopened.read
    obtain ⟨m, hm, hput⟩ := Disk.write_eq_ok (Disk.append_eq_ok hd ht)
    obtain rfl := Except.ok.inj (h.reopened.locate.symm.trans (Disk.target_eq_ok hm).1)
    exact ends_recordWrite (hput ▸ Disk.read_put_self hm _) (h.put _ hput)
  · rw [Disk.append, h.reopened.target (h.rights hr).2] at hx
    cases hx

theorem Written.writeText (s : String) :
    Ends (writeText output s) v (fun _ => Written source output w l)
      fun _ u => ¬ w.disk.Reusable source output ∧ Written source output w l u := by
  refine ends_bind.2 (ends_modifyDisk (fun d hd => ?_) fun x hx => ⟨fun hr => ?_, h⟩)
  · obtain ⟨m, hm, hput⟩ := Disk.write_eq_ok hd
    obtain rfl := Except.ok.inj (h.reopened.locate.symm.trans (Disk.target_eq_ok hm).1)
    exact h.put s hput
  · rw [Disk.write, h.reopened.target (h.rights hr).2] at hx
    cases hx

/-- A text that can be read when the output can be used again. -/
theorem Written.readText {path : String}
    (hload : w.disk.Reusable source output → ∃ t, v.disk.load path = .ok (.text t)) :
    Ends (readText path) v (fun _ => Written source output w l)
      fun _ u => ¬ w.disk.Reusable source output ∧ Written source output w l u := by
  refine (ends_readText path v).mono (fun _ u hu => hu ▸ h) fun _ u hu => ⟨fun hr => ?_, hu.1 ▸ h⟩
  obtain ⟨t, ht⟩ := hload hr
  exact hu.2 t ht

/-- Adding the invariants writes the output only, and cannot fail if that can be used again. -/
theorem Written.appendInvariants {ct : String} (hc : w.disk.load contracts = .ok (.text ct)) :
    Ends (appendInvariants source contracts output) v (fun _ => Written source output w l)
      fun _ u => ¬ w.disk.Reusable source output ∧ Written source output w l u := by
  have hn := (Disk.target_eq_ok h.target).2.2
  refine (h.readText fun hr => h.rewritten.exists_load hn (h.rights hr).1 hc).bind
    fun text u hu => ?_
  by_cases hi : (!(Contracts.invariantSection (Text.lines text.toList)).isEmpty) = true
  · dsimp only
    rw [if_pos hi]
    refine (hu.appendText _).bind fun _ u hu => ?_
    exact (hu.readText fun hr => hu.reopened.load (hu.rights hr).1).bind
      fun _ u hu => hu.writeText _
  · dsimp only
    rw [if_neg hi]
    exact hu

end Written

/-- After the first write two runs end in the same way, and their disks hold the same. -/
theorem agree_appendInvariants {v v' : World} {ct : String}
    (hc : w.disk.load contracts = .ok (.text ct)) (hv : Begun source output w v v') :
    Agree (Begun source output w) (Halted source output w w')
      (appendInvariants source contracts output v)
      (appendInvariants source contracts output v') := by
  obtain ⟨hsame, l, hwritten⟩ := hv
  have hends := hwritten.appendInvariants hc
  rcases agree_iff.1 (sameDisk_appendInvariants source contracts output v v' hsame) with
    ⟨a, u, u', hr, hr', hu⟩ | ⟨e, u, u', hr, hr', hu⟩
  · rw [hr, hr']
    exact ⟨rfl, hu, l, hends.of_ok hr⟩
  · rw [hr, hr']
    exact ⟨rfl, .inr ⟨(hends.of_error hr).1, hu, l, (hends.of_error hr).2⟩⟩

/-- The invariants are added to what was written. -/
theorem insertInvariants_of_text {t : String} (h : w.disk.read output = .ok (.text t)) :
    insertInvariants source contracts output true w =
      appendInvariants source contracts output w := by
  rw [insertInvariants, get_bind_apply, Disk.has_of_read h]
  rfl

/-- Two runs on disks that differ in the output end in the same way. -/
theorem agree_annotate (h : w.disk.SameBut output w'.disk)
    (hs : w'.disk.load source = w.disk.load source)
    (hc : w'.disk.load contracts = w.disk.load contracts)
    (hoption : Path.looksLikeOption source = true →
      LineSearch.succeedsWith w'.disk w'.input source =
        LineSearch.succeedsWith w.disk w.input source) :
    Agree (Begun source output w) (Halted source output w w')
      (annotate source contracts output w) (annotate source contracts output w') := by
  rcases insertContracts_pair output hs hc with ⟨e, he, he'⟩ | ⟨st, ct, hst, hct⟩
  · rw [annotate, bind_of_error he, bind_of_error he']
    exact ⟨rfl, .inl ⟨rfl, rfl⟩⟩
  have hst' := hs.trans hst
  have hct' := hc.trans hct
  have hstart {v : World} (hr : v.disk.load source = .ok (.text st))
      (hr' : v.disk.load contracts = .ok (.text ct)) : annotate source contracts output v =
        (insertMerged source output (merge (linesOf st) (linesOf ct)) >>=
          insertInvariants source contracts output) v := by
    show EStateM.bind _ _ v = EStateM.bind _ _ v
    rw [EStateM.bind, EStateM.bind, insertContracts_eq_insertMerged hr hr']
  rw [hstart hst hct, hstart hst' hct']
  cases merge (linesOf st) (linesOf ct) with
  | error e => exact ⟨rfl, .inl ⟨rfl, rfl⟩⟩
  | ok m =>
    rw [insertMerged, bind_assoc]
    have hannotated := (agree_isAnnotatedFile hs hoption).mono (fun _ _ => id)
      fun v v' hv => (.inl hv : Halted source output w w' v v')
    refine hannotated.bind fun annotated v v' hv => ?_
    obtain ⟨rfl, rfl⟩ := hv
    cases m.output? (isCorePath source) annotated with
    | none => exact (agree_copy h hst hst').bind fun _ _ _ hv => agree_appendInvariants hct hv
    | some ls =>
      dsimp only
      rw [bind_assoc]
      refine (agree_writeText (Q := Begun source output v) h.target
        (fun l hl => begun_put h hst hl rfl rfl) (.inl ⟨rfl, rfl⟩)).bind fun _ u u' hu => ?_
      obtain ⟨hsame, l, hwritten⟩ := id hu
      obtain ⟨t, ht⟩ := hwritten.reopened.read
      show Agree _ _ (insertInvariants source contracts output true u)
        (insertInvariants source contracts output true u')
      rw [insertInvariants_of_text ht, insertInvariants_of_text ((hsame.read output).trans ht)]
      exact agree_appendInvariants hct hu

end Merge

/-! ## In a session -/

/-- A sweep in a session: the lines, where it starts, and the list that it adds to. -/
structure SweepCall where
  source : List Line
  contracts : List Line
  start : Int
  given : Option (List (Int × Line))

/-- The session after some sweeps, whatever came of them. -/
def Session.afterSweeps (s : Session) (calls : List SweepCall) : Session :=
  calls.foldl (fun s c => (s.run (Step.sweep c.source c.contracts c.start c.given)).2) s

/-- The world that an operation of a session starts from. -/
def Session.start (s : Session) : World := { s.world with trace := {} }

theorem Session.run_of_ok {α : Type} {s : Session} {e : Effect α} {a : α} {w : World}
    (h : e s.start = .ok a w) : s.run (.onWorld e) = (.ok a, { s with world := w }) := by
  rw [run, Step.onWorld]
  rw [start] at h
  simp only [h]

theorem Session.run_of_error {α : Type} {s : Session} {e : Effect α} {x : Stop} {w : World}
    (h : e s.start = .error x w) : s.run (.onWorld e) = (.error x, { s with world := w }) := by
  rw [run, Step.onWorld]
  rw [start] at h
  simp only [h]

theorem start_of_sweep (s : Session) (source contracts : List Line) (start : Int)
    (given : Option (List (Int × Line))) :
    (s.run (Step.sweep source contracts start given)).2.start = s.start := by
  unfold Session.run Step.sweep
  cases hsweep : Merge.sweepAt source contracts start with
  | ok r =>
    obtain ⟨t, resume⟩ := r
    cases given with
    | none => rfl
    | some before => rfl
  | error e =>
    cases e with
    | start f => rfl
    | header u =>
      cases given with
      | none => rfl
      | some before => rfl

theorem start_afterSweeps (s : Session) (calls : List SweepCall) :
    (s.afterSweeps calls).start = s.start := by
  induction calls generalizing s with
  | nil => rfl
  | cons c rest ih => exact (ih _).trans (start_of_sweep s c.source c.contracts c.start c.given)

namespace Merge

open Effect

/-- Annotating in two sessions, after any sweeps, on disks that differ at most in the file at the
path of the output. Both end in the same way. When they return, their disks hold the same, with a
text at that path. When they are stopped, nothing has been written, unless what is written there
cannot be used again: then it is the only file that has changed, and the disks hold the same. A
source whose name is taken for an option has to give the same search on both disks. -/
theorem annotate_history_free {s s' : Session} {source contracts output : String}
    (calls calls' : List SweepCall) (h : s.world.disk.SameBut output s'.world.disk)
    (hs : s'.world.disk.load source = s.world.disk.load source)
    (hc : s'.world.disk.load contracts = s.world.disk.load contracts)
    (hoption : Path.looksLikeOption source = true →
      LineSearch.succeedsWith s'.world.disk s'.world.input source =
        LineSearch.succeedsWith s.world.disk s.world.input source) :
    let r := (s.afterSweeps calls).run (.onWorld (annotate source contracts output))
    let r' := (s'.afterSweeps calls').run (.onWorld (annotate source contracts output))
    r'.1 = r.1 ∧
      (r.1 = .ok () → r.2.world.disk.Same r'.2.world.disk ∧
        ∃ t, r.2.world.disk.read output = .ok (.text t) ∧
          r'.2.world.disk.read output = .ok (.text t)) ∧
      ∀ e, r.1 = .error e →
        (r.2.world.disk = s.world.disk ∧ r'.2.world.disk = s'.world.disk) ∨
          ¬ s.world.disk.Reusable source output ∧ r.2.world.disk.Same r'.2.world.disk ∧
            ∃ l, s.world.disk.locate output = .ok l ∧
              s.world.disk.Rewritten l r.2.world.disk := by
  intro r r'
  have hstart := start_afterSweeps s calls
  have hstart' := start_afterSweeps s' calls'
  have hpair : Agree (Begun source output s.start) (Halted source output s.start s'.start)
      (annotate source contracts output s.start) (annotate source contracts output s'.start) :=
    agree_annotate h hs hc hoption
  rcases agree_iff.1 hpair with
    ⟨a, v, v', hr, hr', hsame, l, hwritten⟩ | ⟨e, v, v', hr, hr', hhalted⟩
  · have hrun : r = _ := Session.run_of_ok (hstart ▸ hr)
    have hrun' : r' = _ := Session.run_of_ok (hstart' ▸ hr')
    obtain ⟨t, ht⟩ := hwritten.reopened.read
    rw [hrun, hrun']
    refine ⟨rfl, fun _ => ⟨hsame, t, ht, ?_⟩, fun e he => by cases he⟩
    exact (hsame.read output).trans ht
  · have hrun : r = _ := Session.run_of_error (hstart ▸ hr)
    have hrun' : r' = _ := Session.run_of_error (hstart' ▸ hr')
    rw [hrun, hrun']
    refine ⟨rfl, fun he => by (cases he), fun _ _ => ?_⟩
    rcases hhalted with ⟨rfl, rfl⟩ | ⟨hreusable, hsame, l, hwritten⟩
    · exact .inl ⟨rfl, rfl⟩
    · exact .inr ⟨hreusable, hsame, l, (Disk.target_eq_ok hwritten.target).1, hwritten.rewritten⟩

/-- An old file at the path of the output, and a sweep before. -/
theorem annotate_history_free_leftover :
    let st := "use x;\nfn f() \x7b\x7d\n"
    let ct := "_None\n#[requires(true)]\nf\n\nTYPE INVARIANTS\n\nimpl Invariant for S \x7b\n\x7d\n"
    let w := World.ofFiles [("s.rs", st), ("c.rs", ct)]
    let calls : List SweepCall := [⟨["fn f()\n".toList], ["_None\n".toList, "f\n".toList], 0, none⟩]
    let run := fun (s : Session) => s.run (.onWorld (annotate "s.rs" "c.rs" "o.rs"))
    let s : Session := ⟨w, [], none, none, none⟩
    ∃ d, w.disk.write "o.rs" (.text "old\n") = .ok d ∧
      let s' : Session := { s with world := { w with disk := d } }
      (run s).1 = .ok () ∧ (run (s'.afterSweeps calls)).1 = .ok () ∧
        ∃ t, (run s).2.world.disk.read "o.rs" = .ok (.text t) ∧
          (run (s'.afterSweeps calls)).2.world.disk.read "o.rs" = .ok (.text t) := by
  intro st ct w calls run s
  obtain ⟨d, hd, hmodes⟩ := exists_of_toOption_any (x := w.disk.write "o.rs" (.text "old\n"))
    (p := fun d => d.modes.isEmpty) (by decide +kernel)
  have hfree : w.disk.modes = [] := by decide +kernel
  have hs : w.disk.read "s.rs" = .ok (.text st) := eq_ok_of_toOption (by decide +kernel)
  have hc : w.disk.read "c.rs" = .ok (.text ct) := eq_ok_of_toOption (by decide +kernel)
  have hs' := Disk.read_write_of_apart hd (Disk.apart_of_locate_ne (by decide +kernel)) hs
  have hc' := Disk.read_write_of_apart hd (Disk.apart_of_locate_ne (by decide +kernel)) hc
  have hload (path : String) (hp : d.read path = w.disk.read path) :
      d.load path = w.disk.load path := by
    rw [Disk.load_of_modes_nil (List.isEmpty_iff.1 hmodes), Disk.load_of_modes_nil hfree, hp]
  have hsame : w.disk.SameBut "o.rs" d :=
    Disk.sameBut_write hd fun l _ => Disk.mayWrite_of_modes_nil hfree l
  obtain ⟨hend, hreturn, -⟩ := @annotate_history_free s { s with world := { w with disk := d } }
    "s.rs" "c.rs" "o.rs" [] calls hsame (hload _ (hs'.trans hs.symm)) (hload _ (hc'.trans hc.symm))
    fun ho => absurd ho (by decide +kernel)
  have hok : (run s).1 = .ok () := eq_ok_of_toOption (by decide +kernel)
  exact ⟨d, hd, hok, hend.trans hok, (hreturn hok).2⟩

/-- With a source whose name is taken for an option, an old file at the path of the output is
searched too, and the imports are left out because of it. A source that may only be read is copied
with its rights, and the run is stopped with the copy in place. -/
theorem annotate_reads_leftover :
    (let rest := "use x;\n#[requires(true)]\nfn f() \x7b\x7d\n"
      let w := World.ofFiles
        [("-Vfo.rs", "use x;\nfn f() \x7b\x7d\n"), ("c.rs", "_None\n#[requires(true)]\nf\n")]
      ∃ d, w.disk.write "o.rs" (.text "old\n") = .ok d ∧
        (∃ v, annotate "-Vfo.rs" "c.rs" "o.rs" w = .ok () v ∧ (v.disk.read "o.rs").toOption =
          some (.text (String.ofList (featureLine ++ outerImports) ++ rest))) ∧
        ∃ v, annotate "-Vfo.rs" "c.rs" "o.rs" { w with disk := d } = .ok () v ∧
          (v.disk.read "o.rs").toOption = some (.text rest)) ∧
      let w := World.ofFiles [("s.rs", "use x;\n"), ("c.rs", "TYPE INVARIANTS\n\nimpl S\n")]
      let d := w.disk.setMode (Location.ofPath "s.rs") { owner := { write := false } }
      d.has "o.rs" = false ∧
        ∃ v, annotate "s.rs" "c.rs" "o.rs" { w with disk := d } =
            .error (.fault (.disk (.denied "o.rs"))) v ∧
          (v.disk.read "o.rs").toOption = some (.text "use x;\n") := by
  constructor
  · intro rest w
    obtain ⟨_, v, h, hread⟩ := exists_of_returns (x := annotate "-Vfo.rs" "c.rs" "o.rs") (w := w)
      (p := fun _ v => decide ((v.disk.read "o.rs").toOption =
        some (.text (String.ofList (featureLine ++ outerImports) ++ rest)))) (by decide +kernel)
    obtain ⟨d, hd, hrun⟩ := exists_of_toOption_any (x := w.disk.write "o.rs" (.text "old\n"))
      (p := fun d => (annotate "-Vfo.rs" "c.rs" "o.rs").returns { w with disk := d } fun _ v =>
        decide ((v.disk.read "o.rs").toOption = some (.text rest))) (by decide +kernel)
    obtain ⟨_, v', h', hread'⟩ := exists_of_returns hrun
    exact ⟨d, hd, ⟨v, h, of_decide_eq_true hread⟩, v', h', of_decide_eq_true hread'⟩
  · intro w d
    refine ⟨by decide +kernel, ?_⟩
    obtain ⟨x, v, h, hv⟩ := exists_of_stops (x := annotate "s.rs" "c.rs" "o.rs")
      (w := { w with disk := d }) (p := fun x v => decide (x = .fault (.disk (.denied "o.rs")) ∧
        (v.disk.read "o.rs").toOption = some (.text "use x;\n"))) (by decide +kernel)
    obtain ⟨rfl, hread⟩ := of_decide_eq_true hv
    exact ⟨v, h, hread⟩

end Merge

end Covenant
