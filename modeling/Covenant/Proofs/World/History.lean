import Covenant.Proofs.World.Effect
import Covenant.Proofs.World.Path
import Covenant.Proofs.World.Run

/-!
# The events of a run and the disk

The events say what a run did to the disk: `Evolves log d es d'` reads a list of events as the
writes that lead from `d` to `d'`, where directories may also have been made, rights given and lines
added to the log file. So a file that no write leads to and that is not the log holds what it held
(`Evolves.file_iff`), and the last write at a path is what is read there (`Evolves.read_lastWrite`).

`World.Leads P` relates a world to one that a run reaches from it with events in `P` only, and there
is one lemma `leads_…` for each operation of the world. A checkout may do anything to the disk:
`World.Follows P` is what remains of it then, the events and all that no operation changes.
-/

namespace Covenant

/-! ## Disks that grow -/

namespace Disk

/-- The second disk has the same files, and the directories of the first. -/
structure Grows (d d' : Disk) : Prop where
  directory : ∀ {l}, d.node? l = some .directory → d'.node? l = some .directory
  file : ∀ {l c}, d'.node? l = some (.file c) ↔ d.node? l = some (.file c)
  shut : d'.shut = d.shut

theorem Grows.refl (d : Disk) : Grows d d := ⟨id, Iff.rfl, rfl⟩

theorem Grows.trans {d d' d'' : Disk} (h : Grows d d') (h' : Grows d' d'') : Grows d d'' :=
  ⟨fun hl => h'.directory (h.directory hl), h'.file.trans h.file, h'.shut.trans h.shut⟩

theorem grows_put {d : Disk} {l : Location} (hl : d.node? l = none) :
    Grows d (d.put l .directory) := by
  have hnames : l.names ≠ [] := by
    intro hn
    rw [node?, hn] at hl
    cases hl
  refine ⟨node?_put_directory (by rw [hl]; simp), @fun m c => ?_, rfl⟩
  by_cases hm : m = l
  · rw [hm, node?_put d _ hnames, hl]
    simp
  · rw [node?_put_of_ne d _ hm]

theorem grows_setMode (d : Disk) (l : Location) (m : Mode) : Grows d (d.setMode l m) :=
  ⟨id, Iff.rfl, rfl⟩

theorem grows_makeOne {d : Disk} (path : String) : Grows d (d.orUnchanged (d.makeOne path)).1 := by
  unfold makeOne
  cases d.locate path with
  | error o => exact .refl d
  | ok l =>
    cases hn : d.node? l with
    | none =>
      by_cases ht : l.isTooLong
      · simp only [hn, ht, if_true]
        exact .refl d
      · simp only [hn, ht]
        cases d.mayWrite l with
        | true => exact grows_put hn
        | false => exact .refl d
    | some n =>
      cases n with
      | file c =>
        simp only [hn]
        exact .refl d
      | directory =>
        simp only [hn]
        exact .refl d

theorem grows_makeUpTo (d : Disk) (n : Nat) (path : String) : Grows d (d.makeUpTo n path).1 := by
  induction n generalizing d path with
  | zero => exact .refl d
  | succ n ih =>
    rw [makeUpTo]
    cases splitPath path with
    | mk above name =>
      by_cases hc : (above == "" || name == "" || d.has above) = true
      · simp only [hc, if_true]
        exact grows_makeOne path
      · have hone : ∀ d' : Disk, Grows d d' →
            Grows d (if (name == ".") = true then ((d', none) : Disk × Option DiskFault)
              else d'.orUnchanged (d'.makeOne path)).1 := by
          intro d' hd'
          by_cases hdot : (name == ".") = true
          · rw [if_pos hdot]
            exact hd'
          · rw [if_neg hdot]
            exact hd'.trans (grows_makeOne path)
        have hup := ih d above
        simp only [hc]
        cases hm : d.makeUpTo n above with
        | mk d' fault =>
          rw [hm] at hup
          cases fault with
          | none => exact hone d' hup
          | some f =>
            cases f with
            | occupied p => exact hone d' hup
            | _ => exact hup

end Disk

/-! ## What events do to a disk -/

/-- What the event writes at the path. -/
def Event.written? (path : String) : Event → Option Content
  | .write p c => if p = path then some c else none
  | _ => none

/-- What the events write at the path in the end. -/
def lastWrite (path : String) (es : List Event) : Option Content :=
  (es.filterMap (Event.written? path)).getLast?

theorem lastWrite_append_of_none {path : String} {es es' : List Event}
    (h : ∀ e ∈ es', e.written? path = none) : lastWrite path (es ++ es') = lastWrite path es := by
  have : es'.filterMap (Event.written? path) = [] := List.filterMap_eq_nil_iff.2 h
  rw [lastWrite, List.filterMap_append, this, List.append_nil, lastWrite]

theorem lastWrite_eq_none_iff {path : String} {es : List Event} :
    lastWrite path es = none ↔ ∀ e ∈ es, e.written? path = none := by
  rw [lastWrite, List.getLast?_eq_none_iff, List.filterMap_eq_nil_iff]

theorem lastWrite_cons {path : String} {e : Event} {es : List Event} :
    lastWrite path (e :: es) = (lastWrite path es).or (e.written? path) := by
  unfold lastWrite
  cases h : e.written? path with
  | none => rw [List.filterMap_cons_none h, Option.or_none]
  | some c =>
    rw [List.filterMap_cons_some h, List.getLast?_cons]
    cases (es.filterMap (Event.written? path)).getLast? <;> rfl

/-- A text at the end of a file leaves directories and all other files as they are. -/
theorem Disk.node?_extend_of_ne (d : Disk) {l m : Location} (t : String) (h : m ≠ l) :
    (d.extend l t).node? m = d.node? m := by
  unfold extend
  split
  · exact node?_put_of_ne d _ h
  · rfl

theorem Disk.node?_extend_directory {d : Disk} {l m : Location} (t : String)
    (h : d.node? m = some .directory) : (d.extend l t).node? m = some .directory := by
  unfold extend
  split
  · next hl => exact node?_put_directory (by rw [hl]; simp) h
  · exact h

theorem Disk.shut_extend (d : Disk) (l : Location) (t : String) :
    (d.extend l t).shut = d.shut := by
  unfold extend
  split <;> rfl

/-- The writes among the events lead from the first disk to the second, where lines may also be
added to the file at `log`. -/
inductive Disk.Evolves (log : Option Location) : Disk → List Event → Disk → Prop
  | done (d : Disk) : Evolves log d [] d
  | grow {d d₁ d' : Disk} {es : List Event} :
    Grows d d₁ → Evolves log d₁ es d' → Evolves log d es d'
  | write {d d₁ d' : Disk} {path : String} {c : Content} {es : List Event} :
    d.write path c = .ok d₁ → Evolves log d₁ es d' → Evolves log d (.write path c :: es) d'
  | logged {d d' : Disk} {l : Location} {t : String} {es : List Event} :
    log = some l → Evolves log (d.extend l t) es d' → Evolves log d es d'
  | pass {d d' : Disk} {e : Event} {es : List Event} :
    (∀ path, e.written? path = none) → Evolves log d es d' → Evolves log d (e :: es) d'

namespace Disk.Evolves

variable {log : Option Location} {d d' d'' : Disk} {es es' : List Event}

theorem append (h : Evolves log d es d') (h' : Evolves log d' es' d'') :
    Evolves log d (es ++ es') d'' := by
  induction h with
  | done => exact h'
  | grow hg _ ih => exact .grow hg (ih h')
  | write hw _ ih => exact .write hw (ih h')
  | logged hl _ ih => exact .logged hl (ih h')
  | pass he _ ih => exact .pass he (ih h')

theorem directory (h : Evolves log d es d') {l : Location} (hl : d.node? l = some .directory) :
    d'.node? l = some .directory := by
  induction h with
  | done => exact hl
  | grow hg _ ih => exact ih (hg.directory hl)
  | write hw _ ih =>
    obtain ⟨m, hm, rfl⟩ := write_eq_ok hw
    exact ih (node?_put_directory (target_eq_ok hm).2.2 hl)
  | logged _ _ ih => exact ih (node?_extend_directory _ hl)
  | pass _ _ ih => exact ih hl

theorem shut (h : Evolves log d es d') : d'.shut = d.shut := by
  induction h with
  | done => rfl
  | grow hg _ ih => exact ih.trans hg.shut
  | write hw _ ih =>
    obtain ⟨m, -, rfl⟩ := write_eq_ok hw
    exact ih
  | logged _ _ ih => exact ih.trans (shut_extend _ _ _)
  | pass _ _ ih => exact ih

theorem locate (h : Evolves log d es d') {path : String} {l : Location}
    (hl : d.locate path = .ok l) : d'.locate path = .ok l :=
  locate_of_directories (fun hm => h.directory hm) h.shut hl

/-- A file to which no write leads, and that is not the log, holds what it held. -/
theorem file_iff (h : Evolves log d es d') {l : Location} {c : Content}
    (hl : ∀ path c, .write path c ∈ es → d'.locate path ≠ .ok l) (hlog : log ≠ some l) :
    d'.node? l = some (.file c) ↔ d.node? l = some (.file c) := by
  induction h with
  | done => rfl
  | grow hg _ ih => exact (ih hl).trans hg.file
  | @write d d₁ d' path c' es hw hrest ih =>
    refine (ih fun p c hp => hl p c (List.mem_cons_of_mem _ hp)).trans ?_
    obtain ⟨m, hm, rfl⟩ := write_eq_ok hw
    have hne : l ≠ m := by
      rintro rfl
      have hloc : (d.put l (.file c')).locate path = .ok l :=
        locate_put (target_eq_ok hm).2.2 c' (target_eq_ok hm).1
      exact hl path c' List.mem_cons_self (hrest.locate hloc)
    rw [node?_put_of_ne d _ hne]
  | @logged d d' m t es hm _ ih =>
    have hne : l ≠ m := fun he => hlog (he ▸ hm)
    rw [ih hl, node?_extend_of_ne d t hne]
  | pass _ _ ih => exact ih fun p c hp => hl p c (List.mem_cons_of_mem _ hp)

/-- What is read at a path to which no write leads stays. -/
theorem read (h : Evolves log d es d') {path : String} {c : Content}
    (ha : ∀ other c, .write other c ∈ es → d'.Apart path other)
    (hlog : ∀ l, d.locate path = .ok l → log ≠ some l) (hr : d.read path = .ok c) :
    d'.read path = .ok c := by
  obtain ⟨l, hl, hn, hs⟩ := read_eq_ok_iff.1 hr
  refine read_eq_ok_iff.2 ⟨l, h.locate hl, (h.file_iff ?_ (hlog l hl)).2 hn, hs⟩
  intro other c' hm
  exact ha other c' hm l (h.locate hl)

/-- The last write at a path is what is read there, when the other writes lead elsewhere. -/
theorem read_lastWrite (h : Evolves log d es d') {path : String} {c : Content}
    (ha : ∀ other c, .write other c ∈ es → other = path ∨ d'.Apart path other)
    (hlog : ∀ l, d'.locate path = .ok l → log ≠ some l)
    (hw : lastWrite path es = some c) : d'.read path = .ok c := by
  induction h with
  | done => cases hw
  | grow _ _ ih => exact ih ha hlog hw
  | @write d d₁ d' p c' es hp hrest ih =>
    have ha' : ∀ other c, .write other c ∈ es → other = path ∨ d'.Apart path other :=
      fun other c hm => ha other c (List.mem_cons_of_mem _ hm)
    rw [lastWrite_cons] at hw
    cases hl : lastWrite path es with
    | some c₁ =>
      rw [hl] at hw
      exact ih ha' hlog (hl.trans hw)
    | none =>
      -- this is the last write at the path, so all later ones lead elsewhere
      rw [hl, Option.none_or, Event.written?] at hw
      obtain ⟨rfl, rfl⟩ : p = path ∧ c' = c := by simpa using hw
      refine hrest.read ?_ (fun l hl => hlog l (hrest.locate hl)) (read_write_self hp)
      intro other c₂ hm
      rcases ha' other c₂ hm with rfl | hother
      · have hno := lastWrite_eq_none_iff.1 hl _ hm
        simp [Event.written?] at hno
      · exact hother
  | logged _ _ ih => exact ih ha hlog hw
  | @pass d d' e es he _ ih =>
    rw [lastWrite_cons, he path, Option.or_none] at hw
    exact ih (fun other c hm => ha other c (List.mem_cons_of_mem _ hm)) hlog hw

end Disk.Evolves

/-! ## Worlds that a run reaches -/

/-- The world in which the event has been noted. -/
def World.noting (w : World) (e : Event) : World :=
  { w with trace := { w.trace with events := w.trace.events ++ [e] } }

/-- Where the log is written while it is open. -/
def World.logFile? (w : World) : Option Location :=
  if w.log = .opened then some (Location.ofPath logName) else none

theorem World.logFile?_eq_some_iff {w : World} {l : Location} :
    w.logFile? = some l ↔ w.log = .opened ∧ l = Location.ofPath logName := by
  rw [World.logFile?, Option.ite_none_right_eq_some, Option.some_inj, eq_comm (a := l)]

/-- The path does not lead to the open log. -/
def World.OffLog (w : World) (path : String) : Prop :=
  ∀ l, w.disk.locate path = .ok l → w.logFile? ≠ some l

theorem World.offLog_append (w : World) (q : String) {e : String} (he : Path.IsEnding e)
    (hlast : e.toList.getLast? ≠ some 'g') : w.OffLog (q ++ e) := by
  intro l hl
  have hlog : Path.IsEnding logName := by decide
  have hne := Location.ofPath_append_ne_of_getLast? (p := q) (q := "") he hlog hlast
  rw [String.empty_append, ← Disk.locate_eq_ofPath hl] at hne
  exact fun h => hne (World.logFile?_eq_some_iff.1 h).2

/-- The second world follows on the first, with events in `P` only, whatever the disk is. -/
structure World.Follows (P : Event → Prop) (w w' : World) : Prop where
  settings : w'.settings = w.settings
  host : w'.toHost = w.toHost
  log : w'.log = w.log
  events : ∃ es, w'.trace.events = w.trace.events ++ es ∧ ∀ e ∈ es, P e

/-- The world after the file was checked out in the directory. -/
def World.checkedOut (w : World) (directory file : String) : World :=
  { w.noting (.run ["git", "-C", directory, "checkout", file] none) with
    disk := w.tools.git directory file w.disk }

theorem World.follows_checkedOut {P : Event → Prop} {directory file : String} (w : World)
    (h : P (.run ["git", "-C", directory, "checkout", file] none)) :
    w.Follows P (w.checkedOut directory file) :=
  ⟨rfl, rfl, rfl, [_], rfl, fun _ hm => List.mem_singleton.1 hm ▸ h⟩

theorem World.Follows.trans {P : Event → Prop} {w w₁ w' : World} (h : w.Follows P w₁)
    (h' : w₁.Follows P w') : w.Follows P w' := by
  obtain ⟨es, he, hP⟩ := h.events
  obtain ⟨es', he', hP'⟩ := h'.events
  refine ⟨h'.settings.trans h.settings, h'.host.trans h.host, h'.log.trans h.log, es ++ es', ?_, ?_⟩
  · rw [he', he, List.append_assoc]
  · intro e hm
    exact (List.mem_append.1 hm).elim (hP e) (hP' e)

/-- A run leads from the first world to the second, with events in `P` only. -/
structure World.Leads (P : Event → Prop) (w w' : World) : Prop where
  settings : w'.settings = w.settings
  host : w'.toHost = w.toHost
  log : w'.log = w.log
  events : ∃ es, w'.trace.events = w.trace.events ++ es ∧ (∀ e ∈ es, P e) ∧
    w.disk.Evolves w.logFile? es w'.disk

namespace World.Leads

variable {P P' : Event → Prop} {w w₁ w' : World}

theorem follows (h : w.Leads P w') : w.Follows P w' := by
  obtain ⟨es, he, hes, -⟩ := h.events
  exact ⟨h.settings, h.host, h.log, es, he, hes⟩

theorem web (h : w.Leads P w') : w'.web = w.web := congrArg Host.web h.host

theorem tools (h : w.Leads P w') : w'.tools = w.tools := congrArg Host.tools h.host

theorem logFile? (h : w.Leads P w') : w'.logFile? = w.logFile? := by
  rw [World.logFile?, World.logFile?, h.log]

theorem refl (w : World) : w.Leads P w :=
  ⟨rfl, rfl, rfl, [], (List.append_nil _).symm, by simp, .done _⟩

theorem trans (h : w.Leads P w₁) (h' : w₁.Leads P w') : w.Leads P w' := by
  obtain ⟨es, he, hP, hd⟩ := h.events
  obtain ⟨es', he', hP', hd'⟩ := h'.events
  rw [h.logFile?] at hd'
  refine ⟨h'.settings.trans h.settings, h'.host.trans h.host, h'.log.trans h.log, es ++ es',
    ?_, ?_, hd.append hd'⟩
  · rw [he', he, List.append_assoc]
  · intro e hm
    exact (List.mem_append.1 hm).elim (hP e) (hP' e)

theorem mono (h : w.Leads P w') (hP : ∀ e, P e → P' e) : w.Leads P' w' := by
  obtain ⟨es, he, hes, hd⟩ := h.events
  exact ⟨h.settings, h.host, h.log, es, he, fun e hm => hP e (hes e hm), hd⟩

theorem trace {t : Trace} (ht : t.events = w.trace.events) : w.Leads P { w with trace := t } :=
  ⟨rfl, rfl, rfl, [], by rw [List.append_nil, ht], by simp, .done _⟩

theorem logging (w : World) (line : String) : w.Leads P (w.logging line) := by
  refine ⟨rfl, rfl, rfl, [], (List.append_nil _).symm, by simp, ?_⟩
  show w.disk.Evolves _ [] (if w.log = .opened then _ else _)
  by_cases h : w.log = .opened
  · rw [if_pos h]
    exact .logged (by rw [World.logFile?, if_pos h]) (.done _)
  · rw [if_neg h]
    exact .done _

/-- An event that is no write. -/
theorem record {e : Event} (he : P e) (hn : ∀ path, e.written? path = none) :
    w.Leads P (w.noting e) :=
  ⟨rfl, rfl, rfl, [e], rfl, fun _ hm => List.mem_singleton.1 hm ▸ he, .pass hn (.done _)⟩

theorem write {path : String} {c : Content} {d : Disk} (hP : P (.write path c))
    (hd : w.disk.write path c = .ok d) :
    w.Leads P ({ w with disk := d }.noting (.write path c)) :=
  ⟨rfl, rfl, rfl, [_], rfl, fun _ hm => List.mem_singleton.1 hm ▸ hP, .write hd (.done _)⟩

theorem grow {d : Disk} (hd : w.disk.Grows d) : w.Leads P { w with disk := d } :=
  ⟨rfl, rfl, rfl, [], (List.append_nil _).symm, by simp, .grow hd (.done _)⟩

/-- What is read of a path stays when nothing is written but the log. -/
theorem read (h : w.Leads P w') (hP : ∀ path c, ¬ P (.write path c)) {path : String} {c : Content}
    (hlog : w.OffLog path) (hr : w.disk.read path = .ok c) : w'.disk.read path = .ok c := by
  obtain ⟨es, -, hes, hd⟩ := h.events
  exact hd.read (fun other c hm => absurd (hes _ hm) (hP other c)) hlog hr

end World.Leads

/-! ## Histories -/

/-- Each event has `G` together with the events before it. -/
def Along (G : List Event → Event → Prop) (es : List Event) : Prop :=
  ∀ before e after, es = before ++ e :: after → G before e

theorem along_nil (G : List Event → Event → Prop) : Along G [] := by
  intro before e after h
  simp at h

theorem Along.concat {G : List Event → Event → Prop} {es : List Event} {e : Event}
    (h : Along G es) (he : G es e) : Along G (es ++ [e]) := by
  intro before e' after heq
  rcases List.append_eq_append_iff.1 heq with ⟨mid, rfl, hmid⟩ | ⟨mid, rfl, hmid⟩
  · cases mid with
    | nil =>
      obtain ⟨rfl, -⟩ := List.cons.inj hmid
      rwa [List.append_nil]
    | cons x mid => simp at hmid
  · cases mid with
    | nil =>
      obtain ⟨rfl, -⟩ := List.cons.inj hmid
      rwa [List.append_nil] at he
    | cons x mid =>
      obtain ⟨rfl, -⟩ := List.cons.inj hmid
      exact h before e' mid rfl

/-- The events after `past` are in `Φ`, and each has `G` together with those before it. -/
def World.Tells (past : List Event) (G : List Event → Event → Prop) (Φ : List Event → Prop)
    (w : World) : Prop :=
  ∃ es, w.trace.events = past ++ es ∧ Φ es ∧ Along G es

namespace World.Tells

variable {past : List Event} {G : List Event → Event → Prop} {Φ Φ' : List Event → Prop}
  {P : Event → Prop} {w w' : World}

theorem start (w : World) (h : Φ []) : w.Tells w.trace.events G Φ :=
  ⟨[], (List.append_nil _).symm, h, along_nil G⟩

theorem mono (h : w.Tells past G Φ) (hΦ : ∀ es, Φ es → Φ' es) : w.Tells past G Φ' := by
  obtain ⟨es, he, hes, hG⟩ := h
  exact ⟨es, he, hΦ es hes, hG⟩

/-- One more event. -/
theorem noting {e : Event} (h : w.Tells past G Φ) (he : ∀ es, Φ es → Φ' (es ++ [e]) ∧ G es e) :
    (w.noting e).Tells past G Φ' := by
  obtain ⟨es, hes, hΦ, hG⟩ := h
  refine ⟨es ++ [e], ?_, (he es hΦ).1, hG.concat (he es hΦ).2⟩
  show w.trace.events ++ [e] = past ++ (es ++ [e])
  rw [hes, List.append_assoc]

/-- Events that keep the history in `Φ`, one by one. -/
theorem follows (h : w.Tells past G Φ) (hw : w.Follows P w')
    (hP : ∀ es e, Φ es → P e → Φ (es ++ [e]) ∧ G es e) : w'.Tells past G Φ := by
  obtain ⟨es, hes, hΦ, hG⟩ := h
  obtain ⟨new, hnew, hall⟩ := hw.events
  rw [hes, List.append_assoc] at hnew
  have hrun : Φ (es ++ new) ∧ Along G (es ++ new) := by
    clear hnew hes
    induction new generalizing es with
    | nil =>
      rw [List.append_nil]
      exact ⟨hΦ, hG⟩
    | cons e new ih =>
      have he := hP es e hΦ (hall e List.mem_cons_self)
      rw [List.append_cons]
      exact ih (es ++ [e]) he.1 (hG.concat he.2) fun e hm => hall e (List.mem_cons_of_mem _ hm)
  exact ⟨es ++ new, hnew, hrun.1, hrun.2⟩

theorem leads (h : w.Tells past G Φ) (hw : w.Leads P w')
    (hP : ∀ es e, Φ es → P e → Φ (es ++ [e]) ∧ G es e) : w'.Tells past G Φ :=
  h.follows hw.follows hP

end World.Tells

/-! ## Events by number -/

theorem eq_take_append_drop {es : List Event} {n : Nat} {e : Event} (h : es[n]? = some e) :
    es = es.take n ++ e :: es.drop (n + 1) := by
  obtain ⟨hlt, rfl⟩ := List.getElem?_eq_some_iff.1 h
  rw [← List.drop_eq_getElem_cons hlt, List.take_append_drop]

/-- Whether the event with number `n` is a request with messages in `p`. -/
def requestAt (es : List Event) (n : Nat) (p : List Message → Bool) : Bool :=
  match es[n]? with
  | some (.request _ _ messages _) => p messages
  | _ => false

theorem exists_of_requestAt {es : List Event} {n : Nat} {p : List Message → Bool}
    (h : requestAt es n p = true) :
    ∃ model system messages mark, p messages = true ∧
      es = es.take n ++ .request model system messages mark :: es.drop (n + 1) := by
  unfold requestAt at h
  cases hn : es[n]? with
  | none =>
    rw [hn] at h
    cases h
  | some e =>
    rw [hn] at h
    cases e with
    | request model system messages mark =>
      exact ⟨model, system, messages, mark, h, eq_take_append_drop hn⟩
    | _ => cases h

/-- Whether the event with number `n` is a write at the path of a content in `p`. -/
def writeAt (es : List Event) (n : Nat) (path : String) (p : Content → Bool) : Bool :=
  match es[n]? with
  | some (.write other c) => other == path && p c
  | _ => false

theorem exists_of_writeAt {es : List Event} {n : Nat} {path : String} {p : Content → Bool}
    (h : writeAt es n path p = true) :
    ∃ c, p c = true ∧ es = es.take n ++ .write path c :: es.drop (n + 1) := by
  unfold writeAt at h
  cases hn : es[n]? with
  | none =>
    rw [hn] at h
    cases h
  | some e =>
    rw [hn] at h
    cases e with
    | write other c =>
      obtain ⟨hpath, hc⟩ := (Bool.and_eq_true _ _).mp h
      obtain rfl : other = path := eq_of_beq hpath
      exact ⟨c, hc, eq_take_append_drop hn⟩
    | _ => cases h

/-! ## Operations of the world -/

namespace Effect

variable {α β : Type} {P : Event → Prop}

/-- Every run of the operation has events in `P` only. -/
def Leads (P : Event → Prop) (x : Effect α) : Prop :=
  ∀ w : World, Ends x w (fun _ => w.Leads P) fun _ => w.Leads P

theorem Leads.pure (a : α) : Leads P (pure a) := fun w => .refl w

theorem Leads.bind {x : Effect α} {f : α → Effect β} (hx : Leads P x) (hf : ∀ a, Leads P (f a)) :
    Leads P (x >>= f) := fun w => (hx w).bind fun a v hv =>
  (hf a v).mono (fun _ _ => hv.trans) fun _ _ => hv.trans

theorem Leads.ite {p : Prop} [Decidable p] {x y : Effect α} (hx : p → Leads P x)
    (hy : ¬ p → Leads P y) : Leads P (if p then x else y) := by
  by_cases h : p
  · rw [if_pos h]
    exact hx h
  · rw [if_neg h]
    exact hy h

theorem Leads.get_bind {f : World → Effect β} (hf : ∀ w, Leads P (f w)) : Leads P (get >>= f) :=
  fun w => hf w w

/-- What the events of an operation keep of the world is kept. -/
theorem Leads.brings {x : Effect α} {T : World → Prop} (h : Leads P x)
    (hT : ∀ {w w'}, T w → w.Leads P w' → T w') : Brings T (fun _ => T) (fun _ => T) x :=
  fun w hw => (h w).mono (fun _ _ => hT hw) fun _ _ => hT hw

/-- Every run of the operation has events in `P` only, whatever it does to the disk. -/
def Follows (P : Event → Prop) (x : Effect α) : Prop :=
  ∀ w : World, Ends x w (fun _ => w.Follows P) fun _ => w.Follows P

theorem Leads.follows {x : Effect α} (h : Leads P x) : Follows P x :=
  fun w => (h w).mono (fun _ _ => World.Leads.follows) fun _ _ => World.Leads.follows

theorem Follows.bind {x : Effect α} {f : α → Effect β} (hx : Follows P x)
    (hf : ∀ a, Follows P (f a)) : Follows P (x >>= f) := fun w => (hx w).bind fun a v hv =>
  (hf a v).mono (fun _ _ => hv.trans) fun _ _ => hv.trans

theorem leads_throw (e : Stop) : Leads P (throw e : Effect α) := fun w => .refl w

theorem leads_fail (f : Fault) : Leads P (fail f : Effect α) := leads_throw _

theorem leads_settings : Leads P settings := .get_bind fun _ => .pure _

theorem leads_modifyTrace {f : Trace → Trace} (hf : ∀ t, (f t).events = t.events) :
    Leads P (modifyTrace f) := fun w => World.Leads.trace (hf w.trace)

theorem leads_record {e : Event} (he : P e) (hn : ∀ path, e.written? path = none) :
    Leads P (record e) := fun _ => World.Leads.record he hn

theorem leads_log (line : String) : Leads P (log line) := fun w => .logging w line

theorem leads_print (s : String) : Leads P (print s) := by
  refine .get_bind fun w => ?_
  cases printed? w s with
  | some s => exact leads_modifyTrace fun _ => rfl
  | none => exact leads_fail _

theorem leads_say (s : String) : Leads P (say s) := (leads_print s).bind fun _ => leads_print _

theorem leads_remark (s : String) : Leads P (remark s) :=
  leads_settings.bind fun _ => .ite (fun _ => leads_say s) fun _ => .pure _

theorem leads_ofDisk (r : Except DiskFault α) : Leads P (ofDisk r) := by
  cases r with
  | ok a => exact .pure a
  | error f => exact leads_fail _

theorem leads_openFile (path : String) : Leads P (openFile path) :=
  .get_bind fun _ => leads_ofDisk _

theorem leads_decode (c : Content) : Leads P (decode c) := by
  unfold decode
  cases c.chars? with
  | some s => exact .pure s
  | none => exact leads_fail _

theorem leads_readText (path : String) : Leads P (readText path) :=
  (leads_openFile path).bind fun _ => (leads_decode _).bind fun _ => .pure _

theorem leads_makeDirectory (path : String) : Leads P (makeDirectory path) := by
  intro w
  have hg := World.Leads.grow (P := P) (Disk.grows_makeUpTo w.disk Disk.maxMade path)
  rw [makeDirectory, ends_bind, Ends]
  show Ends _ w _ _
  cases hm : w.disk.makeDirectory path with
  | mk d fault =>
    rw [← Disk.makeDirectory, hm] at hg
    dsimp only
    refine ends_bind.2 ?_
    -- the directories that were made stay when there is a fault
    cases fault with
    | none => exact hg
    | some f => exact hg

theorem ends_modifyDisk {f : Disk → Except DiskFault Disk} {w : World} {Q : Unit → World → Prop}
    {E : Stop → World → Prop} (hok : ∀ d, f w.disk = .ok d → Q () { w with disk := d })
    (herr : ∀ x, f w.disk = .error x → E (.fault (.disk x)) w) : Ends (modifyDisk f) w Q E := by
  rw [modifyDisk, ends_bind]
  show Ends (ofDisk (f w.disk) >>= _) w Q E
  cases hf : f w.disk with
  | ok d => exact hok d hf
  | error x => exact herr x hf

theorem ends_writeText {path text : String} {w : World} {Q : Unit → World → Prop}
    {E : Stop → World → Prop}
    (hok : ∀ d, w.disk.write path (.text text) = .ok d →
      Q () ({ w with disk := d }.noting (.write path (.text text))))
    (herr : ∀ x, E x w) : Ends (writeText path text) w Q E :=
  ends_bind.2 (ends_modifyDisk (fun d hd => hok d hd) fun _ _ => herr _)

theorem leads_writeText {path text : String} (h : P (.write path (.text text))) :
    Leads P (writeText path text) :=
  fun w => ends_writeText (fun _ hd => .write h hd) fun _ => .refl w

theorem ends_recordWrite {path : String} {c : Content} {w : World} {Q : Unit → World → Prop}
    {E : Stop → World → Prop} (hr : w.disk.read path = .ok c)
    (h : Q () (w.noting (.write path c))) : Ends (recordWrite path) w Q E := by
  rw [recordWrite, ends_bind]
  show Ends (ofDisk (w.disk.read path) >>= _) w Q E
  rw [hr]
  exact h

theorem leads_appendText {path text : String} (h : ∀ c, P (.write path c)) :
    Leads P (appendText path text) := by
  intro w
  refine ends_bind.2 (ends_modifyDisk (fun d hd => ?_) fun x _ => .refl w)
  obtain ⟨c, hr, hw⟩ := Disk.exists_of_append hd
  exact ends_recordWrite hr (World.Leads.write (h c) hw)

theorem ends_copyOnto {source target : String} {w : World} {Q : Unit → World → Prop}
    {E : Stop → World → Prop}
    (hok : ∀ d c, w.disk.load source = .ok c → w.disk.write target c = .ok d →
      Q () ({ w with disk := d }.noting (.write target c)))
    (herr : ∀ x, E x w) : Ends (copyOnto source target) w Q E := by
  refine ends_bind.2 (ends_modifyDisk (fun d hd => ?_) fun x _ => herr _)
  obtain ⟨c, hr, hw⟩ := Disk.copyOnto_eq_ok hd
  exact ends_recordWrite (Disk.read_write_self hw) (hok d c hr hw)

theorem leads_copyOnto {source target : String} (h : ∀ c, P (.write target c)) :
    Leads P (copyOnto source target) :=
  fun w => ends_copyOnto (fun _ c _ hd => .write (h c) hd) fun _ => .refl w

theorem leads_copyRights (source target : String) :
    Leads P (modifyDisk fun d => d.copyRights source target) := by
  intro w
  refine ends_modifyDisk (fun d hd => ?_) fun x _ => .refl w
  obtain ⟨l, m, -, -, rfl⟩ := Disk.copyRights_eq_ok hd
  exact .grow (Disk.grows_setMode _ m _)

/-- A copy to a path is written there, or into the directory at the path. -/
theorem leads_copy {source target : String} (h : ∀ c, P (.write target c))
    (hin : ∀ c, P (.write (Path.join target (Path.base source)) c)) :
    Leads P (copy source target) := by
  refine .get_bind fun w => ?_
  unfold Disk.copyTarget
  cases w.disk.hasDirectory target with
  | true =>
    rw [if_pos rfl]
    exact (leads_copyOnto hin).bind fun _ => leads_copyRights _ _
  | false =>
    rw [if_neg Bool.false_ne_true]
    exact (leads_copyOnto h).bind fun _ => leads_copyRights _ _

theorem leads_fetch {url : String} (h : P (.fetch url)) : Leads P (fetch url) := by
  refine (leads_record h fun _ => rfl).bind fun _ => .get_bind fun w => ?_
  cases w.web url with
  | body c => exact .pure c
  | status code reason => exact leads_fail _
  | unreachable reason => exact leads_fail _

theorem follows_checkout {directory file : String}
    (h : P (.run ["git", "-C", directory, "checkout", file] none)) :
    Follows P (checkout directory file) := fun w => w.follows_checkedOut h

/-- The formatter may write the file, after its run was noted. -/
theorem ends_format {path : String} {T T' : World → Prop}
    (hrun : ∀ w, T w → T' (w.noting (.run ["rustfmt", path] none)))
    (hwrite : ∀ {w w'}, T' w → w.Leads (fun e => ∃ c, e = .write path c) w' → T' w') {w : World}
    (hw : T w) : Ends (format path) w (fun _ => T') fun _ => T' := by
  refine Ends.bind (Q := fun _ => T') (hrun w hw) fun _ w' hw' => ?_
  have hleads (x : Effect Unit) (hx : x.Leads fun e => ∃ c, e = .write path c) :
      Ends x w' (fun _ => T') fun _ => T' :=
    (hx w').mono (fun _ _ => hwrite hw') fun _ _ => hwrite hw'
  refine hleads _ (.get_bind fun v => ?_)
  cases v.tools.formatter path v.disk with
  | keeps => exact .pure _
  | missing => exact leads_fail _
  | replaces text =>
    dsimp only
    cases v.disk.write path (.text text) with
    | ok d => exact leads_writeText ⟨_, rfl⟩
    | error f => exact .pure _

theorem leads_format {path : String} (hr : P (.run ["rustfmt", path] none))
    (hw : ∀ c, P (.write path c)) : Leads P (format path) := by
  intro w
  refine ends_format (T := w.Leads P) (fun v hv => hv.trans (.record hr fun _ => rfl))
    (fun hv hl => hv.trans (hl.mono ?_)) (.refl w)
  rintro e ⟨c, rfl⟩
  exact hw c

end Effect

/-! ## Operations on a part of the state -/

namespace Act

variable {σ τ α β : Type} {st : Settings} {P P' : Event → Prop} {J J' D D' : σ → Prop}
  {K K' : α → σ → Prop} {L : β → σ → Prop}

/-- With the settings `st`, a run from a part in `J` leads to one in `K`, with the value it gives,
or to one in `D` when it is stopped, with events in `P` only. -/
def Leads (st : Settings) (P : Event → Prop) (J : σ → Prop) (K : α → σ → Prop) (D : σ → Prop)
    (act : Act σ α) : Prop :=
  ∀ s : Scene σ, s.world.settings = st → J s.focus →
    Ends act s (fun a t => K a t.focus ∧ s.world.Leads P t.world)
      fun _ t => D t.focus ∧ s.world.Leads P t.world

theorem Leads.mono {act : Act σ α} (h : Leads st P J K D act) (hP : ∀ e, P e → P' e)
    (hJ : ∀ b, J' b → J b) (hK : ∀ a b, K a b → K' a b) (hD : ∀ b, D b → D' b) :
    Leads st P' J' K' D' act := by
  intro s hst hs
  refine (h s hst (hJ _ hs)).mono (fun _ t ht => ?_) fun _ t ht => ?_
  · exact ⟨hK _ _ ht.1, ht.2.mono hP⟩
  · exact ⟨hD _ ht.1, ht.2.mono hP⟩

theorem Leads.post {act : Act σ α} (h : Leads st P J K D act) (hK : ∀ a b, K a b → K' a b) :
    Leads st P J K' D act := h.mono (fun _ => id) (fun _ => id) hK fun _ => id

theorem Leads.pure {a : α} (h : ∀ b, J b → K a b) : Leads st P J K D (pure a) :=
  fun s _ hs => ⟨h _ hs, .refl s.world⟩

theorem Leads.bind {x : Act σ α} {f : α → Act σ β} (hx : Leads st P J K D x)
    (hf : ∀ a, Leads st P (K a) L D (f a)) : Leads st P J L D (x >>= f) := by
  intro s hst hs
  refine (hx s hst hs).bind fun a t ht => ?_
  refine (hf a t (ht.2.settings.trans hst) ht.1).mono (fun _ u hu => ?_) fun _ u hu => ?_
  · exact ⟨hu.1, ht.2.trans hu.2⟩
  · exact ⟨hu.1, ht.2.trans hu.2⟩

theorem Leads.ite {p : Prop} [Decidable p] {x y : Act σ α} (hx : p → Leads st P J K D x)
    (hy : ¬ p → Leads st P J K D y) : Leads st P J K D (if p then x else y) := by
  by_cases h : p
  · rw [if_pos h]
    exact hx h
  · rw [if_neg h]
    exact hy h

theorem Leads.get_bind {f : Scene σ → Act σ β}
    (hf : ∀ s, s.world.settings = st → J s.focus → Leads st P J L D (f s)) :
    Leads st P J L D (get >>= f) := fun s hst hs => hf s hst hs s hst hs

theorem Leads.focus_bind {f : σ → Act σ β} (hf : ∀ b, J b → Leads st P J L D (f b)) :
    Leads st P J L D (focus >>= f) := fun s hst hs => hf s.focus hs s hst hs

theorem leads_lift {e : Effect α} (he : e.Leads P) (hK : ∀ a b, J b → K a b)
    (hD : ∀ b, J b → D b) : Leads st P J K D (lift e) := fun s _ hs =>
  ends_lift.2 ((he s.world).mono (fun a _ h => ⟨hK a _ hs, h⟩) fun _ _ h => ⟨hD _ hs, h⟩)

theorem keeps_effect {p : Scene σ → Prop} {e : Effect α}
    (hworld : ∀ {s w}, p s → s.world.Follows P w → p { s with world := w }) (he : e.Follows P) :
    (lift e).Keeps p :=
  fun s hs => ends_lift.2 ((he s.world).mono (fun _ _ => hworld hs) fun _ _ => hworld hs)

theorem Leads.value_bind {x : Act σ α} {f : α → Act σ β} {v : α}
    (hx : ∀ s : Scene σ, s.world.settings = st → J s.focus → x s = .ok v s)
    (hf : Leads st P J L D (f v)) : Leads st P J L D (x >>= f) := by
  intro s hst hs
  rw [ends_bind, Ends, hx s hst hs]
  exact hf s hst hs

theorem Leads.settings_bind {f : Settings → Act σ β} (hf : Leads st P J L D (f st)) :
    Leads st P J L D (lift Effect.settings >>= f) :=
  .value_bind (fun _ hst _ => settings_apply hst) hf

theorem leads_modifyFocus {f : σ → σ} {K : Unit → σ → Prop} (h : ∀ b, J b → K () (f b)) :
    Leads st P J K D (modifyFocus f) := fun s _ hs => ⟨h _ hs, .refl s.world⟩

theorem leads_zoom {view : σ → τ} {update : τ → σ → σ} {act : Act τ α} {A C : τ → Prop}
    {B : α → τ → Prop} (h : Leads st P A B C act) (hA : ∀ s, J s → A (view s))
    (hB : ∀ s a t, J s → B a t → K a (update t s)) (hC : ∀ s t, J s → C t → D (update t s)) :
    Leads st P J K D (zoom view update act) := by
  intro s hst hs
  have hact := h ⟨view s.focus, s.world⟩ hst (hA _ hs)
  refine ends_zoom.2 (hact.mono (fun _ t ht => ?_) fun _ t ht => ?_)
  · exact ⟨hB _ _ _ hs ht.1, ht.2⟩
  · exact ⟨hC _ _ hs ht.1, ht.2⟩

/-- The settings are `st`, the part is in `J` and the world in `T`. -/
structure At (st : Settings) (J : σ → Prop) (T : World → Prop) (s : Scene σ) : Prop where
  settings : s.world.settings = st
  focus : J s.focus
  world : T s.world

/-- What the events of an operation keep of the world is kept. -/
theorem Leads.brings {act : Act σ α} {T : World → Prop} (h : Leads st P J K D act)
    (hT : ∀ {w w'}, T w → w.Leads P w' → T w') :
    Brings (At st J T) (fun a => At st (K a) T) (fun _ => At st D T) act := fun s hs =>
  (h s hs.settings hs.focus).mono
    (fun _ _ ht => ⟨ht.2.settings.trans hs.settings, ht.1, hT hs.world ht.2⟩)
    fun _ _ ht => ⟨ht.2.settings.trans hs.settings, ht.1, hT hs.world ht.2⟩

end Act

/-! ## Annotating -/

namespace Merge

open Effect

variable {P : Event → Prop} {source contracts output : String}

theorem leads_isAnnotatedFile (path : String) : Leads P (isAnnotatedFile path) := by
  refine .get_bind fun w => .ite (fun _ => leads_fail _) fun _ => .ite (fun _ => leads_fail _)
    fun _ => .ite (fun _ => .pure _) fun _ => ?_
  cases w.disk.load path with
  | ok c => exact .pure _
  | error f => exact .pure _

theorem leads_insertContracts (h : ∀ c, P (.write output c)) :
    Leads P (insertContracts source contracts output) := by
  refine (leads_openFile _).bind fun sc => (leads_openFile _).bind fun cc =>
    (leads_decode _).bind fun s => (leads_decode _).bind fun c => ?_
  dsimp only
  cases merge (Text.lines s) (Text.lines c) with
  | error e => exact leads_fail _
  | ok m =>
    refine (leads_isAnnotatedFile _).bind fun annotated => ?_
    cases m.output? (isCorePath source) annotated with
    | none => exact .pure _
    | some ls => exact (leads_writeText (h _)).bind fun _ => .pure _

theorem leads_appendInvariants (h : ∀ c, P (.write output c)) :
    Leads P (appendInvariants source contracts output) := by
  refine (leads_readText _).bind fun t => .ite (fun _ => ?_) fun _ => .pure _
  exact (leads_appendText h).bind fun _ => (leads_readText _).bind fun _ => leads_writeText (h _)

/-- Annotating writes the output only, or a copy of the source into a directory at its path. -/
theorem leads_annotate (h : ∀ c, P (.write output c))
    (hin : ∀ c, P (.write (Path.join output (Path.base source)) c)) :
    Leads P (annotate source contracts output) := by
  refine (leads_insertContracts h).bind fun attributes => .get_bind fun w => ?_
  exact .ite (fun _ => (leads_copy h hin).bind fun _ => leads_appendInvariants h)
    fun _ => leads_appendInvariants h

end Merge

end Covenant
