import Covenant.World.Disk

/-!
# Reading after writing

Putting a file where no directory is does not change the way of any path that could be followed
before (`locate_put`). So what is written at a path is read there (`read_write_self`), and what
is read at a path that leads elsewhere stays the same (`read_write_of_apart`). Rights have no part
in the way of a path: changing them changes neither where paths lead nor what files hold.
-/

namespace Covenant.Disk

/-! ## Following a path -/

@[simp] theorem shut_put (d : Disk) (l : Location) (n : Node) : (d.put l n).shut = d.shut := rfl

@[simp] theorem modes_put (d : Disk) (l : Location) (n : Node) : (d.put l n).modes = d.modes := rfl

@[simp] theorem shut_setMode (d : Disk) (l : Location) (m : Mode) :
    (d.setMode l m).shut = d.shut := rfl

@[simp] theorem node?_setMode (d : Disk) (l : Location) (m : Mode) :
    (d.setMode l m).node? = d.node? := rfl

/-- From a place a name leads to another. There has to be a directory when more names follow. -/
inductive Passes (d : Disk) (here : Location) (name : String) (rest : List String) :
    Location → Prop
  | dot (h : name = ".") : d.Passes here name rest here
  | up (h : name = "..") : d.Passes here name rest here.parent
  | child (h : name ≠ "." ∧ name ≠ "..")
      (hdir : rest ≠ [] → ¬ (here.child name).isTooLong = true ∧
        d.node? (here.child name) = some .directory) : d.Passes here name rest (here.child name)

theorem walk_child {d : Disk} {here found : Location} {name : String} {rest : List String}
    (h : name ≠ "." ∧ name ≠ "..") (hopen : ¬ d.shut.elem here = true) :
    d.walk here (name :: rest) = .ok found ↔
      (rest ≠ [] → ¬ (here.child name).isTooLong = true ∧
        d.node? (here.child name) = some .directory) ∧
      d.walk (here.child name) rest = .ok found := by
  rw [walk, if_neg hopen, if_neg h.1, if_neg h.2]
  cases rest with
  | nil => simp [walk]
  | cons next rest =>
    rw [List.isEmpty_cons, if_neg Bool.false_ne_true]
    by_cases hlong : (here.child name).isTooLong = true
    · simp [hlong]
    rw [if_neg hlong]
    cases hn : d.node? (here.child name) with
    | none => simp
    | some n =>
      cases n with
      | file c => simp
      | directory => simp [hlong]

theorem walk_cons_iff {d : Disk} {here found : Location} {name : String} {rest : List String} :
    d.walk here (name :: rest) = .ok found ↔ ¬ d.shut.elem here = true ∧
      ∃ there, d.Passes here name rest there ∧ d.walk there rest = .ok found := by
  constructor
  · intro h
    have hopen : ¬ d.shut.elem here = true := by
      intro hshut
      rw [walk, if_pos hshut] at h
      cases h
    refine ⟨hopen, ?_⟩
    by_cases hdot : name = "."
    · rw [walk, if_neg hopen, if_pos hdot] at h
      exact ⟨_, .dot hdot, h⟩
    by_cases hup : name = ".."
    · rw [walk, if_neg hopen, if_neg hdot, if_pos hup] at h
      exact ⟨_, .up hup, h⟩
    obtain ⟨hdir, hrest⟩ := (walk_child ⟨hdot, hup⟩ hopen).1 h
    exact ⟨_, .child ⟨hdot, hup⟩ hdir, hrest⟩
  · rintro ⟨hopen, there, hpass, hrest⟩
    cases hpass with
    | dot h => rwa [walk, if_neg hopen, if_pos h]
    | up h => rwa [walk, if_neg hopen, if_neg (h ▸ by decide), if_pos h]
    | child h hdir => exact (walk_child h hopen).2 ⟨hdir, hrest⟩

/-- A path that can be followed as far as its text goes. -/
structure Followable (path : String) : Prop where
  zeroByte : ¬ hasZeroByte path = true
  ne_empty : path ≠ ""
  length : ¬ maxPathBytes ≤ path.utf8ByteSize

theorem locate_eq_ok_iff {d : Disk} {path : String} {l : Location} :
    d.locate path = .ok l ↔
      Followable path ∧ d.walk ⟨Base.ofPath path, []⟩ (Path.names path) = .ok l := by
  constructor
  · intro h
    unfold locate at h
    by_cases hzero : hasZeroByte path = true
    · rw [if_pos hzero] at h
      cases h
    by_cases hempty : path = ""
    · rw [if_neg hzero, if_pos hempty] at h
      cases h
    by_cases hlong : maxPathBytes ≤ path.utf8ByteSize
    · rw [if_neg hzero, if_neg hempty, if_pos hlong] at h
      cases h
    · rw [if_neg hzero, if_neg hempty, if_neg hlong] at h
      exact ⟨⟨hzero, hempty, hlong⟩, h⟩
  · rintro ⟨hpath, h⟩
    rwa [locate, if_neg hpath.zeroByte, if_neg hpath.ne_empty, if_neg hpath.length]

/-- A way that can be followed stays when no directory of it goes and none is shut. -/
theorem walk_of_directories {d d' : Disk}
    (hd : ∀ {l}, d.node? l = some .directory → d'.node? l = some .directory)
    (hshut : d'.shut = d.shut)
    {names : List String} {here found : Location} (h : d.walk here names = .ok found) :
    d'.walk here names = .ok found := by
  induction names generalizing here with
  | nil => exact h
  | cons name rest ih =>
    obtain ⟨hopen, there, hpass, hrest⟩ := walk_cons_iff.1 h
    refine walk_cons_iff.2 ⟨hshut ▸ hopen, there, ?_, ih hrest⟩
    cases hpass with
    | dot h => exact .dot h
    | up h => exact .up h
    | child h hdir => exact .child h fun hmore => ⟨(hdir hmore).1, hd (hdir hmore).2⟩

theorem locate_of_directories {d d' : Disk}
    (hd : ∀ {l}, d.node? l = some .directory → d'.node? l = some .directory)
    (hshut : d'.shut = d.shut) {path : String} {found : Location}
    (h : d.locate path = .ok found) : d'.locate path = .ok found := by
  obtain ⟨hpath, hwalk⟩ := locate_eq_ok_iff.1 h
  exact locate_eq_ok_iff.2 ⟨hpath, walk_of_directories hd hshut hwalk⟩

theorem walk_setMode (d : Disk) (l : Location) (m : Mode) (here : Location)
    (names : List String) : (d.setMode l m).walk here names = d.walk here names := by
  induction names generalizing here with
  | nil => rfl
  | cons name rest ih => simp only [walk, ih, shut_setMode, node?_setMode]

@[simp] theorem locate_setMode (d : Disk) (l : Location) (m : Mode) (path : String) :
    (d.setMode l m).locate path = d.locate path := by
  simp only [locate, walk_setMode]

@[simp] theorem read_setMode (d : Disk) (l : Location) (m : Mode) (path : String) :
    (d.setMode l m).read path = d.read path := by
  simp only [read, lookup, locate_setMode, node?_setMode]

theorem node?_put_directory {d : Disk} {l m : Location} {n : Node}
    (hl : d.node? l ≠ some .directory) (h : d.node? m = some .directory) :
    (d.put l n).node? m = some .directory := by
  have hne : m ≠ l := fun he => hl (he ▸ h)
  rw [node?_put_of_ne d _ hne, h]

theorem locate_put {d : Disk} {l : Location} (hl : d.node? l ≠ some .directory) (c : Content)
    {path : String} {found : Location} (h : d.locate path = .ok found) :
    (d.put l (.file c)).locate path = .ok found :=
  locate_of_directories (node?_put_directory hl) rfl h

/-! ## Reading -/

theorem read_eq_ok_iff {d : Disk} {path : String} {c : Content} :
    d.read path = .ok c ↔
      ∃ l, d.locate path = .ok l ∧ d.node? l = some (.file c) ∧ Path.endsInSlash path = false := by
  unfold read lookup
  cases d.locate path with
  | error o => simp
  | ok l =>
    cases hn : d.node? l with
    | none =>
      cases ht : l.isTooLong <;> simp [hn, ht]
    | some n =>
      cases n with
      | directory => simp [hn]
      | file c' => cases Path.endsInSlash path <;> simp [hn]

theorem has_of_read {d : Disk} {path : String} {c : Content} (h : d.read path = .ok c) :
    d.has path = true := by
  obtain ⟨l, hl, hn, hs⟩ := read_eq_ok_iff.1 h
  simp [has, lookup, hl, hn, hs]

theorem load_eq_ok_iff {d : Disk} {path : String} {c : Content} :
    d.load path = .ok c ↔ d.read path = .ok c ∧ d.mayRead path = true := by
  unfold load
  cases d.mayRead path <;> simp

theorem read_of_load {d : Disk} {path : String} {c : Content} (h : d.load path = .ok c) :
    d.read path = .ok c :=
  (load_eq_ok_iff.1 h).1

/-- What is at a path may be read if its rights say so. -/
theorem mayRead_of_has {d : Disk} {path : String} {l : Location} (hl : d.locate path = .ok l)
    (h : d.has path = true) : d.mayRead path = (d.rights l).read := by
  simp [mayRead, hl, h]

theorem exists_of_hasDirectory {d : Disk} {path : String} (h : d.hasDirectory path = true) :
    ∃ l, d.locate path = .ok l ∧ d.node? l = some .directory := by
  unfold hasDirectory lookup at h
  cases hl : d.locate path with
  | error o => simp [hl] at h
  | ok l =>
    refine ⟨l, rfl, ?_⟩
    cases hn : d.node? l with
    | none => cases ht : l.isTooLong <;> simp [hl, hn, ht] at h
    | some n =>
      cases n with
      | directory => rfl
      | file c => cases hs : Path.endsInSlash path <;> simp [hl, hn, hs] at h

/-! ## Writing -/

theorem target_eq_ok {d : Disk} {path : String} {l : Location} (h : d.target path = .ok l) :
    d.locate path = .ok l ∧ Path.endsInSlash path = false ∧ d.node? l ≠ some .directory := by
  unfold target at h
  split at h
  · cases h
  · next l' hl' =>
    split at h
    · cases h
    · next hd =>
      split at h
      · cases h
      · split at h
        · obtain rfl := Except.ok.inj h
          rw [Bool.or_eq_true, not_or, Bool.not_eq_true, beq_iff_eq] at hd
          exact ⟨hl', hd⟩
        · cases h

theorem names_ne_nil_of_not_directory {d : Disk} {l : Location}
    (h : d.node? l ≠ some .directory) : l.names ≠ [] := by
  intro hn
  exact h (by simp [node?, hn])

/-- The two paths do not lead to one place. -/
def Apart (d : Disk) (a b : String) : Prop := ∀ l, d.locate a = .ok l → d.locate b ≠ .ok l

theorem apart_of_locate_ne {d : Disk} {a b : String}
    (h : (d.locate a).toOption ≠ (d.locate b).toOption) : d.Apart a b := by
  intro l ha hb
  exact h (by rw [ha, hb])

theorem read_put_self {d : Disk} {path : String} {l : Location} (h : d.target path = .ok l)
    (c : Content) : (d.put l (.file c)).read path = .ok c := by
  obtain ⟨hl, hs, hn⟩ := target_eq_ok h
  exact read_eq_ok_iff.2
    ⟨l, locate_put hn c hl, node?_put d _ (names_ne_nil_of_not_directory hn), hs⟩

theorem read_put_of_apart {d : Disk} {path other : String} {l : Location} {c c' : Content}
    (h : d.target path = .ok l) (ha : d.Apart other path) (hr : d.read other = .ok c) :
    (d.put l (.file c')).read other = .ok c := by
  obtain ⟨hl, -, hn⟩ := target_eq_ok h
  obtain ⟨l', hl', hn', hs'⟩ := read_eq_ok_iff.1 hr
  have hne : l' ≠ l := fun he => ha l' hl' (he ▸ hl)
  exact read_eq_ok_iff.2
    ⟨l', locate_put hn c' hl', by rw [node?_put_of_ne d _ hne, hn'], hs'⟩

theorem write_eq_ok {d d' : Disk} {path : String} {c : Content} (h : d.write path c = .ok d') :
    ∃ l, d.target path = .ok l ∧ d' = d.put l (.file c) := by
  unfold write at h
  cases hl : d.target path with
  | error e => simp [hl, Except.map] at h
  | ok l => exact ⟨l, rfl, by simpa [hl, Except.map, eq_comm] using h⟩

/-- What is written at a path is read there. -/
theorem read_write_self {d d' : Disk} {path : String} {c : Content}
    (h : d.write path c = .ok d') : d'.read path = .ok c := by
  obtain ⟨l, hl, rfl⟩ := write_eq_ok h
  exact read_put_self hl c

/-- What is read at a path that leads elsewhere is not changed by writing. -/
theorem read_write_of_apart {d d' : Disk} {path other : String} {c c' : Content}
    (h : d.write path c' = .ok d') (ha : d.Apart other path) (hr : d.read other = .ok c) :
    d'.read other = .ok c := by
  obtain ⟨l, hl, rfl⟩ := write_eq_ok h
  exact read_put_of_apart hl ha hr

/-- Appending to a file writes it anew with the text at its end. -/
theorem append_eq_ok {d d' : Disk} {path : String} {c : Content} {t : String}
    (h : d.append path t = .ok d') (hr : d.read path = .ok c) :
    d.write path (c.append t) = .ok d' := by
  unfold append at h
  unfold write
  cases hl : d.target path with
  | error e => simp [hl, Except.map] at h
  | ok l =>
    obtain ⟨l', hl', hn, -⟩ := read_eq_ok_iff.1 hr
    obtain ⟨hlp, -, -⟩ := target_eq_ok hl
    obtain rfl := Except.ok.inj (hlp.symm.trans hl')
    simpa [hl, hn, Except.map] using h

/-- Appending writes the file anew with what is then read there. -/
theorem exists_of_append {d d' : Disk} {path t : String} (h : d.append path t = .ok d') :
    ∃ c, d'.read path = .ok c ∧ d.write path c = .ok d' := by
  unfold append at h
  unfold write
  cases hl : d.target path with
  | error e => simp [hl, Except.map] at h
  | ok l =>
    simp only [hl, Except.map, Except.ok.injEq] at h ⊢
    cases hn : d.node? l with
    | none =>
      simp only [hn] at h
      exact ⟨_, h ▸ read_put_self hl _, h⟩
    | some n =>
      cases n with
      | file c =>
        simp only [hn] at h
        exact ⟨_, h ▸ read_put_self hl _, h⟩
      | directory => exact absurd hn (target_eq_ok hl).2.2

/-- A directory is not read, and nothing is appended to it. -/
theorem no_file_of_directory {d : Disk} {path : String} {l : Location} (hl : d.locate path = .ok l)
    (hd : d.node? l = some .directory) :
    (∀ c, d.read path ≠ .ok c) ∧ ∀ t d', d.append path t ≠ .ok d' := by
  constructor
  · intro c hr
    obtain ⟨k, hk, hfile, -⟩ := read_eq_ok_iff.1 hr
    obtain rfl := Except.ok.inj (hl.symm.trans hk)
    cases hd.symm.trans hfile
  · intro t d' ha
    obtain ⟨c, -, hw⟩ := exists_of_append ha
    obtain ⟨k, hk, -⟩ := write_eq_ok hw
    obtain ⟨hk, -, hno⟩ := target_eq_ok hk
    obtain rfl := Except.ok.inj (hl.symm.trans hk)
    exact hno hd

/-- A directory stays one when something is written. -/
theorem directory_of_write {d d' : Disk} {path other : String} {c : Content}
    (h : d.write path c = .ok d') (hd : d.hasDirectory other = true) :
    ∃ m, d'.locate other = .ok m ∧ d'.node? m = some .directory := by
  obtain ⟨l, hl, rfl⟩ := write_eq_ok h
  obtain ⟨-, -, hn⟩ := target_eq_ok hl
  obtain ⟨m, hm, hdir⟩ := exists_of_hasDirectory hd
  exact ⟨m, locate_put hn c hm, node?_put_directory hn hdir⟩

/-- A copy writes what it reads. -/
theorem copyOnto_eq_ok {d d' : Disk} {source target : String}
    (h : d.copyOnto source target = .ok d') :
    ∃ c, d.load source = .ok c ∧ d.write target c = .ok d' := by
  unfold copyOnto at h
  split at h
  · cases h
  · split at h
    · cases h
    · split at h
      · cases h
      · next c hc =>
        refine ⟨c, hc, ?_⟩
        split at h
        · split at h <;> cases h
        · exact h



/-- What is at the path gets the rights of the source. -/
theorem copyRights_eq_ok {d d' : Disk} {source target : String}
    (h : d.copyRights source target = .ok d') :
    ∃ l m, d.locate source = .ok l ∧ d.locate target = .ok m ∧
      d' = d.setMode m ((d.mode m).withRightsOf (d.mode l)) := by
  unfold copyRights at h
  split at h
  · cases h
  · cases h
  · next l m hl hm =>
    split at h
    · exact ⟨l, m, hl, hm, (Except.ok.inj h).symm⟩
    · cases h

end Covenant.Disk
