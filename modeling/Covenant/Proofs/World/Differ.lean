import Covenant.Proofs.World.Pair
import Covenant.Proofs.World.Path

/-!
# Disks that differ in one file

Two disks that hold the same give the same answers (`Disk.Same`). Where they differ at most in the
file at one path (`Disk.SameBut`), that path still leads to the same place, and once a file has been
written there on both they hold the same. A disk on which nothing but the file at one location was
written, and is a text, is `Disk.Rewritten`. The operations on files are then followed in two runs
side by side.
-/

namespace Covenant

namespace Disk

/-! ## Disks that hold the same -/

/-- The same is at every location, and can be used in the same way. -/
structure Same (d d' : Disk) : Prop where
  node? : ∀ l, d'.node? l = d.node? l
  mode : ∀ l, d'.mode l = d.mode l
  shut : d'.shut = d.shut

namespace Same

variable {d d' : Disk} (h : d.Same d')

include h

theorem walk (here : Location) (names : List String) : d'.walk here names = d.walk here names := by
  induction names generalizing here with
  | nil => rfl
  | cons name rest ih =>
    rw [Disk.walk, Disk.walk, ih, ih, ih, h.node?, h.shut]

theorem locate (path : String) : d'.locate path = d.locate path := by
  rw [Disk.locate, Disk.locate, h.walk]

theorem lookup (path : String) : d'.lookup path = d.lookup path := by
  rw [Disk.lookup, Disk.lookup, h.locate]
  cases d.locate path with
  | error o => rfl
  | ok l => simp only [h.node? l]

theorem read (path : String) : d'.read path = d.read path := by
  rw [Disk.read, Disk.read, h.lookup]

theorem has (path : String) : d'.has path = d.has path := by
  rw [Disk.has, Disk.has, h.lookup]

theorem load (path : String) : d'.load path = d.load path := by
  have hmay : d'.mayRead path = d.mayRead path := by
    rw [Disk.mayRead, Disk.mayRead, h.locate, h.has]
    cases d.locate path with
    | error o => rfl
    | ok l => simp only [rights, h.mode]
  rw [Disk.load, Disk.load, hmay, h.read]

theorem mayWrite (l : Location) : d'.mayWrite l = d.mayWrite l := by
  simp only [Disk.mayWrite, rights, h.node?, h.mode]

theorem target (path : String) : d'.target path = d.target path := by
  rw [Disk.target, Disk.target, h.locate]
  cases d.locate path with
  | error o => rfl
  | ok l => simp only [h.node? l, h.mayWrite l]

theorem put (l : Location) (n : Node) : (d.put l n).Same (d'.put l n) := by
  refine ⟨fun m => ?_, h.mode, h.shut⟩
  by_cases hm : m = l
  · subst hm
    by_cases hn : m.names = []
    · simp [Disk.node?, hn]
    · rw [node?_put _ _ hn, node?_put _ _ hn]
  · rw [node?_put_of_ne _ _ hm, node?_put_of_ne _ _ hm, h.node?]

end Same

/-! ## Modes -/

theorem mode_setMode (d : Disk) (l : Location) (m : Mode) : (d.setMode l m).mode l = m := by
  simp [mode, setMode]

theorem mode_setMode_of_ne (d : Disk) {l k : Location} (m : Mode) (h : k ≠ l) :
    (d.setMode l m).mode k = d.mode k := by
  have hk : (k == l) = false := by simpa using h
  simp [mode, setMode, List.lookup_cons, hk]

theorem load_of_modes_nil {d : Disk} (h : d.modes = []) (path : String) :
    d.load path = d.read path := by
  have hmay : d.mayRead path = true := by
    rw [mayRead]
    cases d.locate path with
    | error o => rfl
    | ok l => simp [rights, mode, h, Mode.rights]
  rw [load, hmay]
  rfl

theorem mayWrite_of_modes_nil {d : Disk} (h : d.modes = []) (l : Location) :
    (d.rights l).write = true ∧ d.mayWrite l = true := by
  simp [mayWrite, rights, mode, h, Mode.rights]

theorem Same.setMode {d d' : Disk} (h : d.Same d') (l : Location) (m : Mode) :
    (d.setMode l m).Same (d'.setMode l m) := by
  refine ⟨h.node?, fun k => ?_, h.shut⟩
  by_cases hk : k = l
  · rw [hk, mode_setMode, mode_setMode]
  · rw [mode_setMode_of_ne _ _ hk, mode_setMode_of_ne _ _ hk, h.mode]

/-! ## Writing again -/

/-- The second disk is the first with a text at the location, of whatever mode. -/
structure Rewritten (l : Location) (d d' : Disk) : Prop where
  text : ∃ t, d'.node? l = some (.file (.text t))
  node? : ∀ m, m ≠ l → d'.node? m = d.node? m
  mode : ∀ m, m ≠ l → d'.mode m = d.mode m
  shut : d'.shut = d.shut

namespace Rewritten

variable {d d' : Disk} {l : Location}

theorem put (h : d.Rewritten l d') (t : String) : d.Rewritten l (d'.put l (.file (.text t))) := by
  obtain ⟨s, hs⟩ := h.text
  have hnames : l.names ≠ [] := names_ne_nil_of_not_directory (d := d') (by rw [hs]; simp)
  exact ⟨⟨t, node?_put _ _ hnames⟩, fun m hm => by rw [node?_put_of_ne _ _ hm, h.node? m hm],
    h.mode, h.shut⟩

theorem setMode (h : d.Rewritten l d') (m : Mode) : d.Rewritten l (d'.setMode l m) :=
  ⟨h.text, h.node?, fun k hk => by rw [mode_setMode_of_ne _ _ hk, h.mode k hk], h.shut⟩

/-- Paths lead where they led, as no directory has gone. -/
theorem locate (h : d.Rewritten l d') (hl : d.node? l ≠ some .directory) {path : String}
    {found : Location} (hp : d.locate path = .ok found) : d'.locate path = .ok found := by
  refine locate_of_directories (fun {m} hm => ?_) h.shut hp
  have hne : m ≠ l := fun he => hl (he ▸ hm)
  rw [h.node? m hne, hm]

end Rewritten

theorem rewritten_put {d : Disk} {path : String} {l : Location} (h : d.target path = .ok l)
    (t : String) : d.Rewritten l (d.put l (.file (.text t))) := by
  have hnames := names_ne_nil_of_not_directory (target_eq_ok h).2.2
  exact ⟨⟨t, node?_put _ _ hnames⟩, fun m hm => node?_put_of_ne _ _ hm, fun _ _ => rfl, rfl⟩

/-- What the path of a file that was rewritten gives. -/
structure Reopened (d : Disk) (path : String) (l : Location) : Prop where
  locate : d.locate path = .ok l
  read : ∃ t, d.read path = .ok (.text t)
  load : (d.rights l).read = true → ∃ t, d.load path = .ok (.text t)
  target : (d.rights l).write = true → d.target path = .ok l

theorem Rewritten.reopened {d d' : Disk} {path : String} {l : Location} (h : d.Rewritten l d')
    (ht : d.target path = .ok l) : d'.Reopened path l := by
  obtain ⟨hl, hs, hn⟩ := target_eq_ok ht
  obtain ⟨t, htext⟩ := h.text
  have hl' := h.locate hn hl
  have hread : d'.read path = .ok (.text t) := read_eq_ok_iff.2 ⟨l, hl', htext, hs⟩
  have hlong : l.isTooLong = false := by
    rw [Disk.target, hl] at ht
    simp only [hs, beq_eq_false_iff_ne.2 hn, Bool.or_false, if_neg Bool.false_ne_true] at ht
    exact Bool.eq_false_iff.2 fun hlong => by simp [hlong] at ht
  refine ⟨hl', ⟨t, hread⟩, fun hr => ⟨t, load_eq_ok_iff.2 ⟨hread, ?_⟩⟩, fun hw => ?_⟩
  · rw [mayRead_of_has hl' (has_of_read hread), hr]
  · rw [Disk.target, hl']
    simp [hs, htext, hlong, mayWrite, hw]

/-- A text that could be loaded still can be, if the one that was rewritten can be. -/
theorem Rewritten.exists_load {d d' : Disk} {l : Location} (h : d.Rewritten l d')
    (hl : d.node? l ≠ some .directory) (hread : (d'.rights l).read = true) {path s : String}
    (hr : d.load path = .ok (.text s)) : ∃ t, d'.load path = .ok (.text t) := by
  obtain ⟨hr, hmay⟩ := load_eq_ok_iff.1 hr
  obtain ⟨m, hm, hn, hs⟩ := read_eq_ok_iff.1 hr
  rw [mayRead_of_has hm (has_of_read hr)] at hmay
  have hm' := h.locate hl hm
  have hload {t : String} (hn' : d'.node? m = some (.file (.text t)))
      (hrights : (d'.rights m).read = true) : ∃ t, d'.load path = .ok (.text t) := by
    have hr' : d'.read path = .ok (.text t) := read_eq_ok_iff.2 ⟨m, hm', hn', hs⟩
    exact ⟨t, load_eq_ok_iff.2 ⟨hr', by rw [mayRead_of_has hm' (has_of_read hr'), hrights]⟩⟩
  by_cases he : m = l
  · obtain ⟨t, ht⟩ := h.text
    exact hload (he ▸ ht) (he ▸ hread)
  · exact hload (by rw [h.node? m he, hn]) (by rw [rights, h.mode m he]; exact hmay)

/-! ## Disks that differ at a path -/

/-- The disks differ at most in what is at the path. It is no directory, and can be written on both
or on none. -/
structure SameBut (path : String) (d d' : Disk) : Prop where
  hasDirectory : d.hasDirectory path = false
  hasDirectory' : d'.hasDirectory path = false
  node? : ∀ l, d.locate path ≠ .ok l → d'.node? l = d.node? l
  mode : ∀ l, d'.mode l = d.mode l
  shut : d'.shut = d.shut
  mayWrite : ∀ l, d.locate path = .ok l → d'.mayWrite l = d.mayWrite l

theorem not_directory_of_locate {d : Disk} {path : String} {l : Location}
    (hd : d.hasDirectory path = false) (hl : d.locate path = .ok l) :
    d.node? l ≠ some .directory := by
  intro hn
  simp [hasDirectory, lookup, hl, hn] at hd

namespace SameBut

variable {path : String} {d d' : Disk} (h : d.SameBut path d')

include h

/-- The path leads to the same place, as it leads through directories only. -/
theorem locate : d'.locate path = d.locate path := by
  cases hl : d.locate path with
  | error o =>
    have hsame : d.Same d' := ⟨fun l => h.node? l (by simp [hl]), h.mode, h.shut⟩
    rw [hsame.locate, hl]
  | ok l =>
    refine locate_of_directories (fun {m} hm => ?_) h.shut hl
    have hne : m ≠ l := by
      rintro rfl
      exact not_directory_of_locate h.hasDirectory hl hm
    rw [h.node? m (by rw [hl]; exact fun he => hne (Except.ok.inj he).symm), hm]

theorem target : d'.target path = d.target path := by
  rw [Disk.target, Disk.target, h.locate]
  cases hl : d.locate path with
  | error o => rfl
  | ok l =>
    have hn := not_directory_of_locate h.hasDirectory hl
    have hn' := not_directory_of_locate h.hasDirectory' (h.locate.trans hl)
    simp only [beq_eq_false_iff_ne.2 hn, beq_eq_false_iff_ne.2 hn', h.mayWrite l hl]

/-- Writing at the path takes the difference away. -/
theorem put {l : Location} (hl : d.target path = .ok l) (c : Content) :
    (d.put l (.file c)).Same (d'.put l (.file c)) := by
  obtain ⟨hlocate, -, hn⟩ := target_eq_ok hl
  refine ⟨fun m => ?_, h.mode, h.shut⟩
  by_cases hm : m = l
  · subst hm
    have hne := names_ne_nil_of_not_directory hn
    rw [node?_put _ _ hne, node?_put _ _ hne]
  · rw [node?_put_of_ne _ _ hm, node?_put_of_ne _ _ hm]
    exact h.node? m (by rw [hlocate]; exact fun he => hm (Except.ok.inj he).symm)

/-- A file that reads the same on both is the one at the path on both or on none. -/
theorem areSame {source : String} {c : Content} (hr : d.read source = .ok c)
    (hr' : d'.read source = .ok c) : d'.areSame source path = d.areSame source path := by
  obtain ⟨l, hl, hn, -⟩ := read_eq_ok_iff.1 hr
  obtain ⟨l', hl', hn', -⟩ := read_eq_ok_iff.1 hr'
  obtain rfl : l' = l := (locate_eq_ofPath hl').trans (locate_eq_ofPath hl).symm
  rw [Disk.areSame, Disk.areSame, h.locate, hl, hl', has_of_read hr, has_of_read hr']
  cases hp : d.locate path with
  | error o => rfl
  | ok m =>
    by_cases hm : l' = m
    · subst hm
      simp [Disk.has, lookup, hp, h.locate, hn, hn']
    · have hm : (l' == m) = false := beq_eq_false_iff_ne.2 hm
      simp [hm]

omit h in
/-- Nothing is at a path that ends in a slash, unless it is a directory. -/
theorem has_eq_false {d : Disk} (hd : d.hasDirectory path = false) {p : String}
    (h : d.target path = .error (.isDirectory p)) : d.has path = false := by
  unfold Disk.target at h
  cases hl : d.locate path with
  | error o =>
    rw [hl] at h
    cases o <;> cases h
  | ok l =>
    have hn := not_directory_of_locate hd hl
    simp only [hl, beq_eq_false_iff_ne.2 hn, Bool.or_false] at h
    cases hs : Path.endsInSlash path with
    | false =>
      rw [hs, if_neg Bool.false_ne_true] at h
      split at h
      · cases h
      · split at h <;> cases h
    | true =>
      cases hnode : d.node? l with
      | none => cases ht : l.isTooLong <;> simp [Disk.has, lookup, hl, hnode, ht]
      | some n =>
        cases n with
        | file c => simp [Disk.has, lookup, hl, hnode, hs]
        | directory => exact absurd hnode hn

/-- A copy onto the path ends in the same way. -/
theorem copyOnto {source : String} {c : Content} (hr : d.load source = .ok c)
    (hr' : d'.load source = .ok c) :
    (∃ l, d.target path = .ok l ∧ d.copyOnto source path = .ok (d.put l (.file c)) ∧
        d'.copyOnto source path = .ok (d'.put l (.file c))) ∨
      ∃ f, d.copyOnto source path = .error f ∧ d'.copyOnto source path = .error f := by
  rw [Disk.copyOnto, Disk.copyOnto, h.areSame (read_of_load hr) (read_of_load hr'), hr, hr']
  by_cases hz : (hasZeroByte source || hasZeroByte path) = true
  · rw [if_pos hz, if_pos hz]
    exact .inr ⟨_, rfl, rfl⟩
  rw [if_neg hz, if_neg hz]
  by_cases hs : d.areSame source path = true
  · rw [if_pos hs, if_pos hs]
    exact .inr ⟨_, rfl, rfl⟩
  rw [if_neg hs, if_neg hs]
  have hw : d.write path c = (d.target path).map fun l => d.put l (.file c) := rfl
  have hw' : d'.write path c = (d.target path).map fun l => d'.put l (.file c) := by
    rw [write, h.target]
  simp only [hw, hw']
  cases ht : d.target path with
  | ok l => exact .inl ⟨l, rfl, rfl, rfl⟩
  | error f =>
    cases f with
    | isDirectory p =>
      simp only [Except.map, has_eq_false h.hasDirectory ht,
        has_eq_false h.hasDirectory' (h.target.trans ht)]
      exact .inr ⟨_, rfl, rfl⟩
    | missing | notDirectory | occupied | sameFile | noDirectory | tooLong | denied | notOwner
    | zeroByte | tooDeep => exact .inr ⟨_, rfl, rfl⟩

end SameBut

/-- A disk and the same after a file was written, which can be written again. -/
theorem sameBut_write {path : String} {c : Content} {d d' : Disk} (h : d.write path c = .ok d')
    (hw : ∀ l, d.locate path = .ok l → (d.rights l).write = true ∧ d.mayWrite l = true) :
    d.SameBut path d' := by
  obtain ⟨l, hl, rfl⟩ := write_eq_ok h
  obtain ⟨hlocate, -, hn⟩ := target_eq_ok hl
  have hnode := node?_put d (.file c) (names_ne_nil_of_not_directory hn)
  refine ⟨Bool.eq_false_iff.2 fun hd => ?_, Bool.eq_false_iff.2 fun hd => ?_, fun m hm => ?_,
    fun _ => rfl, rfl, fun m hm => ?_⟩
  · obtain ⟨m, hm, hdir⟩ := exists_of_hasDirectory hd
    exact hn (Except.ok.inj (hlocate.symm.trans hm) ▸ hdir)
  · obtain ⟨m, hm, hdir⟩ := exists_of_hasDirectory hd
    obtain rfl := Except.ok.inj ((locate_put hn c hlocate).symm.trans hm)
    rw [hnode] at hdir
    cases hdir
  · exact node?_put_of_ne d _ fun he => hm (he ▸ hlocate)
  · obtain rfl := Except.ok.inj (hlocate.symm.trans hm)
    have hrights : ((d.put l (.file c)).rights l).write = true := (hw l hm).1
    rw [(hw l hm).2, Disk.mayWrite, hnode, hrights]
    rfl

end Disk

/-! ## Operations on files -/

/-- The disks of the worlds hold the same. -/
def World.SameDisk (w w' : World) : Prop := w.disk.Same w'.disk

namespace Effect

variable {α : Type} {Q E : World → World → Prop} {w w' : World}

theorem agree_modifyDisk {f f' : Disk → Except DiskFault Disk}
    (h : (∃ d d', f w.disk = .ok d ∧ f' w'.disk = .ok d' ∧
        Q { w with disk := d } { w' with disk := d' }) ∨
      ∃ x, f w.disk = .error x ∧ f' w'.disk = .error x ∧ E w w') :
    Agree Q E (modifyDisk f w) (modifyDisk f' w') := by
  rw [modifyDisk, modifyDisk, get_bind_apply, get_bind_apply]
  rcases h with ⟨d, d', hd, hd', hQ⟩ | ⟨x, hx, hx', hE⟩
  · rw [hd, hd']
    exact ⟨rfl, hQ⟩
  · rw [hx, hx']
    exact ⟨rfl, hE⟩

/-- Files of which one is written where the other one is. -/
theorem agree_writeText {path text text' : String}
    (ht : w'.disk.target path = w.disk.target path)
    (hQ : ∀ l, w.disk.target path = .ok l →
      Q ({ w with disk := w.disk.put l (.file (.text text)) }.noting (.write path (.text text)))
        ({ w' with disk := w'.disk.put l (.file (.text text')) }.noting
          (.write path (.text text'))))
    (hE : E w w') : Agree Q E (writeText path text w) (writeText path text' w') := by
  refine Agree.bind (Q := fun v v' => Q (v.noting (.write path (.text text)))
    (v'.noting (.write path (.text text')))) (agree_modifyDisk ?_) fun _ _ _ hv => ⟨rfl, hv⟩
  rw [Disk.write, Disk.write, ht]
  cases hl : w.disk.target path with
  | ok l => exact .inl ⟨_, _, rfl, rfl, hQ l hl⟩
  | error x => exact .inr ⟨x, rfl, rfl, hE⟩

theorem agree_ofDisk {r r' : Except DiskFault α} (hr : r' = r) (hQ : Q w w') (hE : E w w') :
    Agree Q E (ofDisk r w) (ofDisk r' w') := by
  rw [hr]
  cases r with
  | ok c => exact ⟨rfl, hQ⟩
  | error x => exact ⟨rfl, hE⟩

theorem sameDisk_decode {R : World → World → Prop} (c : Content) : Mirrors R (decode c) := by
  unfold decode
  cases c.chars? with
  | some s => exact .pure fun _ _ => id
  | none => exact .throw fun _ _ => id

theorem sameDisk_openFile (path : String) : Mirrors World.SameDisk (openFile path) :=
  fun _ _ h => agree_ofDisk (h.load path) h h

theorem sameDisk_readText (path : String) : Mirrors World.SameDisk (readText path) :=
  (sameDisk_openFile path).bind fun c => (sameDisk_decode c).bind fun _ => .pure fun _ _ => id

theorem sameDisk_writeText (path text : String) : Mirrors World.SameDisk (writeText path text) :=
  fun _ _ h => agree_writeText (h.target path) (fun l _ => h.put l _) h

theorem sameDisk_recordWrite (path : String) : Mirrors World.SameDisk (recordWrite path) := by
  refine .get_bind fun w w' h => .bind (Q := World.SameDisk) (fun v v' hv => ?_) fun _ v v' hv =>
    ⟨rfl, hv⟩
  exact agree_ofDisk (h.read path) hv hv

/-- The rights of a file are given to another one on both disks or on none. -/
theorem sameDisk_copyRights (source target : String) :
    Mirrors World.SameDisk (modifyDisk fun d => d.copyRights source target) := by
  intro w w' h
  refine agree_modifyDisk ?_
  simp only [Disk.copyRights, h.locate]
  cases w.disk.locate source with
  | error o => exact .inr ⟨_, rfl, rfl, h⟩
  | ok l =>
    cases w.disk.locate target with
    | error o => exact .inr ⟨_, rfl, rfl, h⟩
    | ok m =>
      simp only [h.mode]
      by_cases hown : (w.disk.mode m).isOwn = true
      · rw [if_pos hown, if_pos hown]
        exact .inl ⟨_, _, rfl, rfl, h.setMode m _⟩
      · rw [if_neg hown, if_neg hown]
        exact .inr ⟨_, rfl, rfl, h⟩

theorem sameDisk_appendText (path text : String) :
    Mirrors World.SameDisk (appendText path text) := by
  have hmodify : Mirrors World.SameDisk (modifyDisk fun d => d.append path text) := by
    intro w w' h
    refine agree_modifyDisk ?_
    rw [Disk.append, Disk.append, h.target]
    cases w.disk.target path with
    | error x => exact .inr ⟨x, rfl, rfl, h⟩
    | ok l =>
      refine .inl ⟨_, _, rfl, rfl, ?_⟩
      show Disk.Same _ _
      simp only [h.node? l]
      cases w.disk.node? l with
      | none => exact h.put l _
      | some n => cases n <;> exact h.put l _
  exact hmodify.bind fun _ => sameDisk_recordWrite path

end Effect

end Covenant
