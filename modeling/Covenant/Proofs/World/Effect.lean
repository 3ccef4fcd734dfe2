import Covenant.Merge.File
import Covenant.Proofs.World.Disk

/-!
# Operations that return

What a run of an operation did, given that it returned: `bind_eq_ok_iff` takes a sequence of
operations apart, and there is one lemma for each operation on files.
-/

namespace Covenant

/-- A world with these text files. -/
def World.ofFiles (files : List (String × String)) : World where
  web := fun _ => .status 404 "Not Found"
  tools := {}
  clock := ""
  home := "/home/user"
  input := .text ""
  digits := .unicode15
  terminal := false
  disk := files.foldl (fun d f => d.provide f.1 (.text f.2)) { nodes := [] }
  scripts := []
  settings := Settings.default
  log := .elsewhere

/-- A result with a property, by evaluation. -/
theorem exists_of_toOption_any {ε α : Type} {x : Except ε α} {p : α → Bool}
    (h : x.toOption.any p = true) : ∃ a, x = .ok a ∧ p a = true := by
  cases x with
  | error e => cases h
  | ok a => exact ⟨a, rfl, h⟩

theorem eq_of_toOption_eq_some {ε α : Type} {x : Except ε α} {a b : α}
    (h : x.toOption = some a) (hb : x = .ok b) : b = a := by
  subst hb
  exact Option.some.inj h

theorem eq_ok_of_toOption {ε α : Type} {x : Except ε α} {a : α} (h : x.toOption = some a) :
    x = .ok a := by
  cases x with
  | error e => cases h
  | ok b => rw [Option.some.inj h]

namespace Effect

variable {α β : Type} {w w' : World}

/-- Whether the operation returns with the property. -/
def returns (x : Effect α) (w : World) (p : α → World → Bool) : Bool :=
  match x w with
  | .ok a w' => p a w'
  | .error .. => false

theorem exists_of_returns {x : Effect α} {p : α → World → Bool} (h : x.returns w p = true) :
    ∃ a w', x w = .ok a w' ∧ p a w' = true := by
  unfold returns at h
  split at h
  · next a w' ha => exact ⟨a, w', ha, h⟩
  · cases h

/-- Whether the operation is stopped with the property. -/
def stops (x : Effect α) (w : World) (p : Stop → World → Bool) : Bool :=
  match x w with
  | .ok .. => false
  | .error e w' => p e w'

theorem exists_of_stops {x : Effect α} {p : Stop → World → Bool} (h : x.stops w p = true) :
    ∃ e w', x w = .error e w' ∧ p e w' = true := by
  unfold stops at h
  split at h
  · cases h
  · next e w' he => exact ⟨e, w', he, h⟩

/-! ## Sequences -/

theorem bind_eq_ok_iff {x : Effect α} {f : α → Effect β} {b : β} :
    (x >>= f) w = .ok b w' ↔ ∃ a v, x w = .ok a v ∧ f a v = .ok b w' := by
  show EStateM.bind x f w = .ok b w' ↔ _
  unfold EStateM.bind
  cases x w with
  | ok a v =>
    constructor
    · intro h
      exact ⟨a, v, rfl, h⟩
    · rintro ⟨a', v', ha, h⟩
      obtain ⟨rfl, rfl⟩ := EStateM.Result.ok.inj ha
      exact h
  | error e v => simp

theorem bind_of_ok {x : Effect α} {a : α} (h : x w = .ok a w') (f : α → Effect β) :
    (x >>= f) w = f a w' := by
  show EStateM.bind x f w = _
  rw [EStateM.bind, h]

theorem bind_of_error {x : Effect α} {f : α → Effect β} {e : Stop} (h : x w = .error e w') :
    (x >>= f) w = .error e w' := by
  show EStateM.bind x f w = _
  rw [EStateM.bind, h]

theorem pure_eq_ok_iff {a b : α} : (pure a : Effect α) w = .ok b w' ↔ a = b ∧ w = w' := by
  show EStateM.Result.ok a w = .ok b w' ↔ _
  simp

theorem get_bind_apply (f : World → Effect β) : (get >>= f) w = f w w := rfl

theorem fail_ne_ok {f : Fault} {a : α} : fail f w ≠ .ok a w' := nofun

theorem ofDisk_eq_ok_iff {r : Except DiskFault α} {a : α} :
    ofDisk r w = .ok a w' ↔ r = .ok a ∧ w = w' := by
  cases r with
  | error e => simp [ofDisk, fail_ne_ok]
  | ok b => simp [ofDisk, pure_eq_ok_iff]

/-! ## Files -/

theorem openFile_eq_ok_iff {path : String} {c : Content} :
    openFile path w = .ok c w' ↔ w.disk.load path = .ok c ∧ w = w' := by
  rw [openFile, get_bind_apply, ofDisk_eq_ok_iff]

theorem decode_eq_ok_iff {c : Content} {s : List Char} :
    decode c w = .ok s w' ↔ c.chars? = some s ∧ w = w' := by
  unfold decode
  cases c.chars? with
  | none => simp [fail_ne_ok]
  | some s' => simp [pure_eq_ok_iff]

theorem chars?_eq_some_iff {c : Content} {s : List Char} :
    c.chars? = some s ↔ ∃ t, c = .text t ∧ s = Text.unifyNewlines t.toList := by
  cases c with
  | text t => simp [Content.chars?, Content.raw?, eq_comm]
  | binary bs => simp [Content.chars?, Content.raw?]

theorem openFile_of_error {path : String} {f : DiskFault} (h : w.disk.load path = .error f) :
    openFile path w = .error (.fault (.disk f)) w := by
  rw [openFile, get_bind_apply, h]
  rfl

theorem openFile_bind {path : String} {c : Content} (h : w.disk.load path = .ok c)
    (f : Content → Effect α) : (openFile path >>= f) w = f c w := by
  show EStateM.bind (openFile path) f w = _
  rw [EStateM.bind, openFile_eq_ok_iff.2 ⟨h, rfl⟩]

theorem decode_bind (t : String) (f : List Char → Effect α) :
    (decode (.text t) >>= f) w = f (Text.unifyNewlines t.toList) w := by
  show EStateM.bind (decode (.text t)) f w = _
  rw [EStateM.bind, decode_eq_ok_iff.2 ⟨chars?_eq_some_iff.2 ⟨t, rfl, rfl⟩, rfl⟩]

theorem readText_eq_ok_iff {path t : String} :
    readText path w = .ok t w' ↔
      ∃ s, w.disk.load path = .ok (.text s) ∧
        t = String.ofList (Text.unifyNewlines s.toList) ∧ w = w' := by
  simp only [readText, bind_eq_ok_iff, openFile_eq_ok_iff, decode_eq_ok_iff, pure_eq_ok_iff,
    chars?_eq_some_iff]
  constructor
  · rintro ⟨c, v, ⟨hr, rfl⟩, cs, u, ⟨⟨s, rfl, rfl⟩, rfl⟩, rfl, rfl⟩
    exact ⟨s, hr, rfl, rfl⟩
  · rintro ⟨s, hr, rfl, rfl⟩
    exact ⟨_, w, ⟨hr, rfl⟩, _, w, ⟨⟨s, rfl, rfl⟩, rfl⟩, rfl, rfl⟩

/-- A text that can be opened is read with unified newlines, and without one reading is stopped. -/
theorem readText_cases (path : String) (w : World) :
    (∃ d, w.disk.load path = .ok (.text d) ∧
      readText path w = .ok (String.ofList (Text.unifyNewlines d.toList)) w) ∨
    (∀ d, w.disk.load path ≠ .ok (.text d)) ∧ ∃ x, readText path w = .error x w := by
  cases hload : w.disk.load path with
  | error f => exact .inr ⟨fun d hd => (by cases hd), _, bind_of_error (openFile_of_error hload)⟩
  | ok c =>
    cases c with
    | text d => exact .inl ⟨d, rfl, readText_eq_ok_iff.2 ⟨d, hload, rfl, rfl⟩⟩
    | binary bytes =>
      refine .inr ⟨fun d hd => (by cases hd), .fault .notText, ?_⟩
      rw [readText, openFile_bind hload]
      exact bind_of_error rfl

/-- An operation that notes an event changes nothing on the disk. -/
theorem disk_of_record {e : Event} {u : Unit} (h : record e w = .ok u w') : w'.disk = w.disk := by
  cases h
  rfl

theorem disk_of_recordWrite {path : String} {u : Unit} (h : recordWrite path w = .ok u w') :
    w'.disk = w.disk := by
  rw [recordWrite, get_bind_apply] at h
  obtain ⟨c, v, hc, hr⟩ := bind_eq_ok_iff.1 h
  obtain ⟨-, rfl⟩ := ofDisk_eq_ok_iff.1 hc
  exact disk_of_record hr

theorem modifyDisk_of_ok {f : Disk → Except DiskFault Disk} {d : Disk} (h : f w.disk = .ok d) :
    modifyDisk f w = .ok () { w with disk := d } := by
  rw [modifyDisk, get_bind_apply, h]
  rfl

theorem modifyDisk_of_error {f : Disk → Except DiskFault Disk} {x : DiskFault}
    (h : f w.disk = .error x) : modifyDisk f w = .error (.fault (.disk x)) w := by
  rw [modifyDisk, get_bind_apply, h]
  rfl

theorem modifyDisk_eq_ok {f : Disk → Except DiskFault Disk} {u : Unit}
    (h : modifyDisk f w = .ok u w') : f w.disk = .ok w'.disk := by
  rw [modifyDisk, get_bind_apply, bind_eq_ok_iff] at h
  obtain ⟨d, v, hd, hv⟩ := h
  obtain ⟨hf, rfl⟩ := ofDisk_eq_ok_iff.1 hd
  cases hv
  exact hf

theorem writeText_eq_ok {path text : String} {u : Unit} (h : writeText path text w = .ok u w') :
    w.disk.write path (.text text) = .ok w'.disk := by
  obtain ⟨_, v, hv, hr⟩ := bind_eq_ok_iff.1 h
  exact disk_of_record hr ▸ modifyDisk_eq_ok hv

theorem appendText_eq_ok {path text : String} {u : Unit} (h : appendText path text w = .ok u w') :
    w.disk.append path text = .ok w'.disk := by
  obtain ⟨_, v, hv, hr⟩ := bind_eq_ok_iff.1 h
  exact disk_of_recordWrite hr ▸ modifyDisk_eq_ok hv

theorem copyOnto_eq_ok {source target : String} {u : Unit}
    (h : copyOnto source target w = .ok u w') : w.disk.copyOnto source target = .ok w'.disk := by
  obtain ⟨_, v, hv, hr⟩ := bind_eq_ok_iff.1 h
  exact disk_of_recordWrite hr ▸ modifyDisk_eq_ok hv

/-- A copy writes what it reads, and then gives it a mode. -/
theorem copy_eq_ok {source target : String} {u : Unit} (h : copy source target w = .ok u w') :
    ∃ c d l m, w.disk.load source = .ok c ∧
      w.disk.write (w.disk.copyTarget source target) c = .ok d ∧ w'.disk = d.setMode l m := by
  rw [copy, get_bind_apply] at h
  obtain ⟨_, v, hv, hr⟩ := bind_eq_ok_iff.1 h
  obtain ⟨c, hc, hw⟩ := Disk.copyOnto_eq_ok (copyOnto_eq_ok hv)
  obtain ⟨l, m, -, -, hm⟩ := Disk.copyRights_eq_ok (modifyDisk_eq_ok hr)
  exact ⟨c, v.disk, m, _, hc, hw, hm⟩

end Effect

namespace Merge

open Effect

/-! ## Annotating -/

variable {w w' : World} {source contracts output : String}

/-- The test for contracts in a file changes nothing. -/
theorem world_of_isAnnotatedFile {path : String} {b : Bool}
    (h : isAnnotatedFile path w = .ok b w') : w = w' := by
  rw [isAnnotatedFile, get_bind_apply] at h
  by_cases hz : Disk.hasZeroByte path
  · rw [if_pos hz] at h
    exact absurd h fail_ne_ok
  · rw [if_neg hz] at h
    by_cases hm : maxArgumentBytes ≤ path.utf8ByteSize
    · rw [if_pos hm] at h
      exact absurd h fail_ne_ok
    · rw [if_neg hm] at h
      by_cases ho : Path.looksLikeOption path
      · rw [if_pos ho] at h
        exact (pure_eq_ok_iff.1 h).2
      · rw [if_neg ho] at h
        cases hr : w.disk.load path with
        | ok c => exact (pure_eq_ok_iff.1 (by simpa only [hr] using h)).2
        | error e => exact (pure_eq_ok_iff.1 (by simpa only [hr] using h)).2

/-- The lines of a text file. -/
def linesOf (text : String) : List Text.Line := Text.lines (Text.unifyNewlines text.toList)

/-- Writes the source with what was merged into it, if that is an attribute. -/
def insertMerged (source output : String) (x : Except Unreadable Merged) : Effect Bool :=
  match x with
  | .error _ => fail .unreadableHeader
  | .ok m => do
    match m.output? (isCorePath source) (← isAnnotatedFile source) with
    | none => return false
    | some ls =>
      writeLines output ls
      return true

theorem insertContracts_eq_insertMerged {st ct : String}
    (hs : w.disk.load source = .ok (.text st)) (hc : w.disk.load contracts = .ok (.text ct)) :
    insertContracts source contracts output w =
      insertMerged source output (merge (linesOf st) (linesOf ct)) w := by
  rw [insertContracts, openFile_bind hs, openFile_bind hc, decode_bind,
    decode_bind, linesOf, linesOf]
  cases merge (Text.lines (Text.unifyNewlines st.toList))
      (Text.lines (Text.unifyNewlines ct.toList)) with
  | error e => rfl
  | ok m => rfl

/-- When contracts are inserted, the source with its insertions is written; otherwise nothing
is. -/
theorem insertContracts_eq_ok {written : Bool}
    (h : insertContracts source contracts output w = .ok written w') :
    ∃ st ct m annotated, w.disk.load source = .ok (.text st) ∧
      w.disk.load contracts = .ok (.text ct) ∧ merge (linesOf st) (linesOf ct) = .ok m ∧
      isAnnotatedFile source w = .ok annotated w ∧
      ((written = false ∧ m.hasAttributes = false ∧ w' = w) ∨
        ∃ ls, written = true ∧ m.output? (isCorePath source) annotated = some ls ∧
          w.disk.write output (.text (String.ofList ls.flatten)) = .ok w'.disk) := by
  unfold insertContracts at h
  obtain ⟨sc, v, hv, h⟩ := bind_eq_ok_iff.1 h
  obtain ⟨hs, rfl⟩ := openFile_eq_ok_iff.1 hv
  obtain ⟨cc, v, hv, h⟩ := bind_eq_ok_iff.1 h
  obtain ⟨hc, rfl⟩ := openFile_eq_ok_iff.1 hv
  obtain ⟨ss, v, hv, h⟩ := bind_eq_ok_iff.1 h
  obtain ⟨hsd, rfl⟩ := decode_eq_ok_iff.1 hv
  obtain ⟨cs, v, hv, h⟩ := bind_eq_ok_iff.1 h
  obtain ⟨hcd, rfl⟩ := decode_eq_ok_iff.1 hv
  obtain ⟨st, rfl, rfl⟩ := chars?_eq_some_iff.1 hsd
  obtain ⟨ct, rfl, rfl⟩ := chars?_eq_some_iff.1 hcd
  cases hm : merge (linesOf st) (linesOf ct) with
  | error e =>
    rw [linesOf, linesOf] at hm
    simp only [hm] at h
    exact absurd h fail_ne_ok
  | ok m =>
    rw [linesOf, linesOf] at hm
    simp only [hm] at h
    obtain ⟨annotated, v, ha, h⟩ := bind_eq_ok_iff.1 h
    obtain rfl := world_of_isAnnotatedFile ha
    refine ⟨st, ct, m, annotated, hs, hc, hm, ha, ?_⟩
    cases ho : m.output? (isCorePath source) annotated with
    | none =>
      simp only [ho] at h
      obtain ⟨rfl, rfl⟩ := pure_eq_ok_iff.1 h
      exact .inl ⟨rfl, by simpa [Merged.output?] using ho, rfl⟩
    | some ls =>
      simp only [ho] at h
      obtain ⟨_, v, hw, h⟩ := bind_eq_ok_iff.1 h
      obtain ⟨rfl, rfl⟩ := pure_eq_ok_iff.1 h
      exact .inr ⟨ls, rfl, rfl, writeText_eq_ok hw⟩

/-- A section of type invariants is appended, and its import is put into what is then read. -/
theorem appendInvariants_eq_ok {u : Unit}
    (h : appendInvariants source contracts output w = .ok u w') :
    ∃ ct, w.disk.load contracts = .ok (.text ct) ∧
      ((Contracts.invariantSection (linesOf ct) = [] ∧ w' = w) ∨
        Contracts.invariantSection (linesOf ct) ≠ [] ∧
          ∃ d t, w.disk.append output
              (String.ofList (appendix (Contracts.invariantSection (linesOf ct)))) = .ok d ∧
            d.load output = .ok (.text t) ∧
            d.write output (.text (String.ofList
              (importInvariants (isCorePath source) (linesOf t)).flatten)) = .ok w'.disk) := by
  obtain ⟨t, v, hv, h⟩ := bind_eq_ok_iff.1 h
  obtain ⟨ct, hct, rfl, rfl⟩ := readText_eq_ok_iff.1 hv
  refine ⟨ct, hct, ?_⟩
  simp only [String.toList_ofList] at h
  by_cases he : Contracts.invariantSection (linesOf ct) = []
  · rw [linesOf] at he
    rw [he] at h
    exact .inl ⟨he, (pure_eq_ok_iff.1 h).2.symm⟩
  · refine .inr ⟨he, ?_⟩
    rw [linesOf] at he
    rw [if_pos (by simpa using he)] at h
    obtain ⟨_, v, hv, h⟩ := bind_eq_ok_iff.1 h
    obtain ⟨t, v', hv', h⟩ := bind_eq_ok_iff.1 h
    obtain ⟨t, ht, rfl, rfl⟩ := readText_eq_ok_iff.1 hv'
    rw [String.toList_ofList] at h
    exact ⟨v.disk, t, appendText_eq_ok hv, ht, writeText_eq_ok h⟩

/-- The invariants are added to `output` as it is, or to a copy of the source. -/
theorem insertInvariants_eq_ok {attributes : Bool} {u : Unit}
    (h : insertInvariants source contracts output attributes w = .ok u w') :
    ∃ v : World, appendInvariants source contracts output v = .ok u w' ∧
      ((attributes = true ∧ w.disk.has output = true ∧ v = w) ∨
        (attributes = false ∨ w.disk.has output = false) ∧
          ∃ c d l m, w.disk.load source = .ok c ∧
            w.disk.write (w.disk.copyTarget source output) c = .ok d ∧
            v.disk = d.setMode l m) := by
  rw [insertInvariants, get_bind_apply] at h
  by_cases hc : (!attributes || !w.disk.has output) = true
  · rw [if_pos hc] at h
    obtain ⟨_, v, hv, h⟩ := bind_eq_ok_iff.1 h
    exact ⟨v, h, .inr ⟨by simpa using hc, copy_eq_ok hv⟩⟩
  · rw [if_neg hc] at h
    exact ⟨w, h, .inl (by simpa using hc)⟩

end Merge

end Covenant
