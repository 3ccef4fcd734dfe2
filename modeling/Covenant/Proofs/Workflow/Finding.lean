import Covenant.Proofs.Conversation.Answer
import Covenant.Proofs.Workflow.Frame

/-!
# Files that are found and read

Whether a file is there is looked up on the web for two kinds of addresses, and on the disk
otherwise. The worker fetches one of these kinds only: a file that was found under the other is read
from the disk, where its address is a path like any other. A file that was found on the disk is
opened there, which needs a right that finding it does not need. So what was found is read exactly
when it is fetched, may be opened, or is on the disk too (`sourceText_eq_iff`), and the work on the
file is stopped when the worker gets no text (`processFile_of_unread`).
-/

namespace Covenant

open Text

theorem Act.bind_of_error {σ α β : Type} {x : Act σ α} {e : Stop} {s t : Scene σ}
    (h : x s = .error e t) (f : α → Act σ β) : (x >>= f) s = .error e t := by
  show EStateM.bind x f s = _
  rw [EStateM.bind, h]

/-! ## Reading -/

namespace Effect

variable {w : World}

/-- What is at an address is given, and nothing else. -/
theorem ends_fetch (url : String) (w : World) :
    Ends (fetch url) w
      (fun c u => w.web url = .body c ∧ u = w.noting (.fetch url))
      fun _ u => (∀ c, w.web url ≠ .body c) ∧ u = w.noting (.fetch url) := by
  have hrecord : record (.fetch url) w = .ok () (w.noting (.fetch url)) := rfl
  have hweb : (w.noting (.fetch url)).web = w.web := rfl
  rw [Ends, fetch, bind_of_ok hrecord, get_bind_apply, hweb]
  cases hanswer : w.web url with
  | body c => exact ⟨rfl, rfl⟩
  | status code reason => exact ⟨fun c hc => (by cases hc), rfl⟩
  | unreachable reason => exact ⟨fun c hc => (by cases hc), rfl⟩

theorem fetch_of_body {url : String} {c : Content} (h : w.web url = .body c) :
    fetch url w = .ok c (w.noting (.fetch url)) := by
  have hends := ends_fetch url w
  cases hrun : fetch url w with
  | error x u => exact absurd h ((hends.of_error hrun).1 c)
  | ok c' u =>
    obtain ⟨hbody, rfl⟩ := hends.of_ok hrun
    obtain rfl : c = c' := by simpa using h.symm.trans hbody
    rfl

theorem readText_eq_iff {path t : String} :
    (∃ u, readText path w = .ok t u) ↔
      ∃ d, w.disk.load path = .ok (.text d) ∧ String.ofList (unifyNewlines d.toList) = t := by
  simp only [readText_eq_ok_iff]
  constructor
  · rintro ⟨u, d, hload, rfl, -⟩
    exact ⟨d, hload, rfl⟩
  · rintro ⟨d, hload, rfl⟩
    exact ⟨w, d, hload, rfl, rfl⟩

theorem readText_stops_iff {path : String} :
    (∃ x u, readText path w = .error x u) ↔ ∀ d, w.disk.load path ≠ .ok (.text d) := by
  obtain ⟨d, hload, hok⟩ | ⟨hno, x, hx⟩ := readText_cases path w
  · constructor
    · rintro ⟨x, u, hx⟩
      rw [hok] at hx
      cases hx
    · exact fun hno => absurd hload (hno d)
  · exact ⟨fun _ => hno, fun _ => ⟨x, w, hx⟩⟩

end Effect

namespace Disk

theorem hasFile_iff {d : Disk} {path : String} :
    d.hasFile path = true ↔ ∃ c, d.read path = .ok c := by
  unfold hasFile read
  cases d.lookup path with
  | error o => simp
  | ok node =>
    cases node with
    | none => simp
    | some n => cases n <;> simp

/-- A text that is there can be opened exactly when it may be. -/
theorem load_text_iff {d : Disk} {path s : String} (h : d.read path = .ok (.text s)) (t : String) :
    d.load path = .ok (.text t) ↔ d.mayRead path = true ∧ t = s := by
  rw [load_eq_ok_iff, h, and_comm]
  constructor
  · rintro ⟨hmay, ht⟩
    cases ht
    exact ⟨hmay, rfl⟩
  · rintro ⟨hmay, rfl⟩
    exact ⟨hmay, rfl⟩

end Disk

/-! ## Finding -/

namespace Workflow

open Worker

variable {file s : String} {w v : World}

/-- What is found of the file: what the web has at the address, or what is on the disk. -/
def Finds (w : World) (file : String) (c : Content) : Prop :=
  if isOnWeb file then w.web file = .body c else w.disk.read file = .ok c

/-- The world after the file was looked for. -/
def lookedFor (w : World) (file : String) : World :=
  if isOnWeb file then w.noting (.fetch file) else w

/-- The text of what is found. In a file on the disk newlines are unified. -/
def asRead (file s : String) : String :=
  if isOnWeb file then s else String.ofList (unifyNewlines s.toList)

theorem finds_of_onWeb (h : isOnWeb file = true) {c : Content} :
    Finds w file c ↔ w.web file = .body c := by
  rw [Finds, if_pos h]

theorem finds_of_onDisk (h : isOnWeb file = false) {c : Content} :
    Finds w file c ↔ w.disk.read file = .ok c := by
  rw [Finds, h, if_neg Bool.false_ne_true]

theorem disk_lookedFor (w : World) (file : String) : (lookedFor w file).disk = w.disk := by
  unfold lookedFor
  cases isOnWeb file with
  | false => rfl
  | true => rfl

theorem ends_isAvailable (file : String) (w : World) :
    Ends (isAvailable file) w
      (fun b u => u = lookedFor w file ∧ (b = true ↔ ∃ c, Finds w file c))
      fun _ _ => ∀ c, ¬ Finds w file c := by
  cases hweb : isOnWeb file with
  | false =>
    rw [Ends, isAvailable_apply hweb]
    simp only [finds_of_onDisk hweb]
    exact ⟨by rw [lookedFor, hweb, if_neg Bool.false_ne_true], Disk.hasFile_iff⟩
  | true =>
    have hlooked : lookedFor w file = w.noting (.fetch file) := by rw [lookedFor, if_pos hweb]
    rw [isAvailable, hweb, if_pos rfl, hlooked]
    simp only [finds_of_onWeb hweb]
    refine ends_tryCatch.2 (ends_bind.2 ((Effect.ends_fetch file w).mono (fun c u hc => ?_) ?_))
    · exact ⟨hc.2, fun _ => ⟨c, hc.1⟩, fun _ => rfl⟩
    · rintro stop u ⟨hno, hu⟩
      have hmissing : u = w.noting (.fetch file) ∧
          (false = true ↔ ∃ c, w.web file = .body c) :=
        ⟨hu, fun h => (by cases h), fun hfound => hfound.elim fun c hc => absurd hc (hno c)⟩
      cases stop with
      | exit status => exact hno
      | fault f =>
        cases f with
        | httpStatus code reason => exact hmissing
        | _ => exact hno

theorem isAvailable_eq_true_iff :
    isAvailable file w = .ok true v ↔ (∃ c, Finds w file c) ∧ v = lookedFor w file := by
  have hends := ends_isAvailable file w
  constructor
  · intro h
    obtain ⟨hv, hfound⟩ := hends.of_ok h
    exact ⟨hfound.1 rfl, hv⟩
  · rintro ⟨⟨c, hc⟩, rfl⟩
    cases hrun : isAvailable file w with
    | error x u => exact absurd hc (hends.of_error hrun c)
    | ok b u =>
      obtain ⟨rfl, hb⟩ := hends.of_ok hrun
      rw [hb.2 ⟨c, hc⟩]

/-! ## What is read of what is found -/

/-- The file is on the web, at an address that the worker does not fetch. -/
def isUnfetched (file : String) : Bool := startsWith "http://" file.toList

theorem fetches_of_isUnfetched (h : isUnfetched file = true) : fetches file = false := by
  obtain ⟨rest, hrest⟩ := List.isPrefixOf_iff_prefix.1 h
  rw [fetches, ← hrest]
  rfl

theorem isOnWeb_of_isUnfetched (h : isUnfetched file = true) : isOnWeb file = true := by
  rw [isOnWeb, Bool.or_eq_true]
  exact .inr h

theorem isOnWeb_eq_fetches (h : isUnfetched file = false) : isOnWeb file = fetches file := by
  rw [isOnWeb, fetches, show startsWith "http://" file.toList = false from h, Bool.or_false]

theorem web_lookedFor (w : World) (file : String) : (lookedFor w file).web = w.web := by
  unfold lookedFor
  cases isOnWeb file with
  | false => rfl
  | true => rfl

/-- What is found at an address that is fetched is read. -/
theorem sourceText_of_fetches (hfile : fetches file = true) (h : Finds w file (.text s)) :
    ∃ u, sourceText file (lookedFor w file) = .ok (asRead file s) u := by
  have hweb : isOnWeb file = true := by
    rw [isOnWeb, Bool.or_eq_true]
    exact .inl hfile
  have hbody : (lookedFor w file).web file = .body (.text s) := by
    rw [web_lookedFor]
    exact (finds_of_onWeb hweb).1 h
  rw [sourceText, if_pos hfile, Effect.bind_of_ok (Effect.fetch_of_body hbody), asRead, if_pos hweb]
  exact ⟨_, rfl⟩

theorem sourceText_of_not_fetches (hfile : fetches file = false) (v : World) :
    sourceText file v = Effect.readText file v := by
  rw [sourceText, hfile, if_neg Bool.false_ne_true]

/-- What is found is read when it is fetched, when it is on the disk and may be opened, and when it
was found under an address that is never fetched but can be opened at that path. -/
theorem sourceText_eq_iff (h : Finds w file (.text s)) :
    (∃ u, sourceText file (lookedFor w file) = .ok (asRead file s) u) ↔
      fetches file = true ∨ isOnWeb file = false ∧ w.disk.mayRead file = true ∨
        isUnfetched file = true ∧
          ∃ d, w.disk.load file = .ok (.text d) ∧ String.ofList (unifyNewlines d.toList) = s := by
  cases hfetches : fetches file with
  | true => exact ⟨fun _ => .inl rfl, fun _ => sourceText_of_fetches hfetches h⟩
  | false =>
    rw [sourceText_of_not_fetches hfetches, Effect.readText_eq_iff, disk_lookedFor]
    cases hfile : isUnfetched file with
    | true =>
      have hweb := isOnWeb_of_isUnfetched hfile
      simp [asRead, hweb]
    | false =>
      have hweb := (isOnWeb_eq_fetches hfile).trans hfetches
      simp [Disk.load_text_iff ((finds_of_onDisk hweb).1 h), asRead, hweb]

theorem sourceText_stops_iff (h : Finds w file (.text s)) :
    (∃ x u, sourceText file (lookedFor w file) = .error x u) ↔
      isOnWeb file = false ∧ w.disk.mayRead file = false ∨
        isUnfetched file = true ∧ ∀ d, w.disk.load file ≠ .ok (.text d) := by
  cases hfetches : fetches file with
  | true =>
    obtain ⟨u, hu⟩ := sourceText_of_fetches hfetches h
    have hfile : isUnfetched file = false := by
      by_contra hno
      rw [fetches_of_isUnfetched (Bool.not_eq_false _ ▸ hno)] at hfetches
      cases hfetches
    simp [hu, hfile, isOnWeb_eq_fetches hfile, hfetches]
  | false =>
    rw [sourceText_of_not_fetches hfetches, Effect.readText_stops_iff, disk_lookedFor]
    cases hfile : isUnfetched file with
    | true => simp [isOnWeb_of_isUnfetched hfile]
    | false =>
      have hweb := (isOnWeb_eq_fetches hfile).trans hfetches
      simp [Disk.load_text_iff ((finds_of_onDisk hweb).1 h), hweb]

/-! ## The worker -/

/-- The worker that is about to read the file. -/
def facing (file : String) (v : World) (wk : Worker) : Worker :=
  { wk with
    contracts := some ""
    harnesses := some ""
    file := file
    draftName := some (draftNameOf v.settings.sourceDir file) }

theorem take_eq (file : String) (wk : Worker) (v : World) :
    take file ⟨wk, v⟩ = (Act.lift (sourceText file) >>= fun text => do
      Act.modifyFocus fun w => { w with source := some text }
      Effect.record (.take file text) : Act Worker Unit) ⟨facing file v wk, v⟩ := rfl

theorem take_of_read {t : String} {u : World} (h : sourceText file v = .ok t u) (wk : Worker) :
    (take file).runOn wk v =
      (.ok (), { facing file v wk with source := some t }, u.noting (.take file t)) := by
  have hlift : (Act.lift (sourceText file) : Act Worker String) ⟨facing file v wk, v⟩ =
      .ok t ⟨facing file v wk, u⟩ := by rw [Act.lift, h]
  rw [Act.runOn, take_eq, Act.bind_of_ok hlift]
  rfl

theorem take_of_unread {x : Stop} {u : World} (h : sourceText file v = .error x u) (wk : Worker) :
    take file ⟨wk, v⟩ = .error x ⟨facing file v wk, u⟩ := by
  have hlift : (Act.lift (sourceText file) : Act Worker String) ⟨facing file v wk, v⟩ =
      .error x ⟨facing file v wk, u⟩ := by rw [Act.lift, h]
  rw [take_eq, Act.bind_of_error hlift]

/-- The work on a file that is found is stopped where it cannot be read. -/
theorem processFile_of_unread {x : Stop} {u : World} (hfound : isAvailable file w = .ok true v)
    (h : sourceText file v = .error x u) (crew : Crew) :
    (processFile file).runOn crew w =
      (.error x, { crew with worker := facing file v crew.worker }, u) := by
  have htake : Crew.byWorker (take file) ⟨crew, v⟩ =
      .error x ⟨{ crew with worker := facing file v crew.worker }, u⟩ := by
    rw [Crew.byWorker, Act.zoom, take_of_unread h]
  have hdraft : draft file ⟨crew, v⟩ =
      .error x ⟨{ crew with worker := facing file v crew.worker }, u⟩ := by
    rw [draft, Act.bind_of_error htake]
  have hthere : (Act.lift (isAvailable file) : Act Crew Bool) ⟨crew, w⟩ = .ok true ⟨crew, v⟩ := by
    rw [Act.lift, hfound]
  have hrun : processFile file ⟨crew, w⟩ =
      .error x ⟨{ crew with worker := facing file v crew.worker }, u⟩ := by
    refine (Act.bind_of_ok hthere _).trans ?_
    rw [if_pos rfl]
    exact Act.bind_of_error hdraft _
  rw [Act.runOn, hrun]

/-- A file that is found and is a text is read as it was found exactly when its address is fetched,
when it is on the disk and may be opened, or when its address is found but never fetched and the
same text can be opened at that path. Reading it is stopped exactly when it is on the disk and may
not be opened, or its address is of that kind and no text can be opened there. The work on the file
is then stopped at once, and otherwise the worker takes the file on. -/
theorem found_is_read_iff {file s : String} {w v : World} (hfound : isAvailable file w = .ok true v)
    (htext : Finds w file (.text s)) :
    ((∃ u, sourceText file v = .ok (asRead file s) u) ↔
        fetches file = true ∨ isOnWeb file = false ∧ w.disk.mayRead file = true ∨
          isUnfetched file = true ∧
            ∃ d, w.disk.load file = .ok (.text d) ∧ String.ofList (unifyNewlines d.toList) = s) ∧
      ((∃ x u, sourceText file v = .error x u) ↔
        isOnWeb file = false ∧ w.disk.mayRead file = false ∨
          isUnfetched file = true ∧ ∀ d, w.disk.load file ≠ .ok (.text d)) ∧
      (∀ {x u}, sourceText file v = .error x u → ∀ crew : Crew,
        (processFile file).runOn crew w =
          (.error x, { crew with worker := facing file v crew.worker }, u)) ∧
      ∀ {t u}, sourceText file v = .ok t u → ∀ wk : Worker, (take file).runOn wk v =
        (.ok (), { facing file v wk with source := some t }, u.noting (.take file t)) := by
  obtain ⟨-, rfl⟩ := isAvailable_eq_true_iff.1 hfound
  exact ⟨sourceText_eq_iff htext, sourceText_stops_iff htext,
    fun hx crew => processFile_of_unread hfound hx crew, fun ht wk => take_of_read ht wk⟩

/-- A world with a text at an address. -/
def withPage (files : List (String × String)) (url text : String) : World :=
  { World.ofFiles files with
    web := fun other => if other = url then .body (.text text) else .status 404 "Not Found" }

/-- The address is a path on the disk, where the same text is. -/
theorem found_is_read_iff_path :
    let w := withPage [("http:/x/a.rs", "f")] "http://x/a.rs" "f"
    ∃ v u, isAvailable "http://x/a.rs" w = .ok true v ∧
      Finds w "http://x/a.rs" (.text "f") ∧ sourceText "http://x/a.rs" v = .ok "f" u := by
  intro w
  have htext : Finds w "http://x/a.rs" (.text "f") := by
    rw [finds_of_onWeb (by decide)]
    decide +kernel
  have hfound := isAvailable_eq_true_iff.2 ⟨⟨_, htext⟩, rfl⟩
  obtain ⟨u, hu⟩ := (found_is_read_iff hfound htext).1.2
    (.inr (.inr ⟨by decide, "f", by decide +kernel, by decide⟩))
  exact ⟨_, u, hfound, htext, hu⟩

/-- A file that is found on the web is looked for on the disk. -/
theorem found_is_missed :
    let w := withPage [] "http://x/a.rs" "f"
    ∃ v, isAvailable "http://x/a.rs" w = .ok true v ∧ Finds w "http://x/a.rs" (.text "f") ∧
      sourceText "http://x/a.rs" v = .error (.fault (.disk (.missing "http://x/a.rs"))) v := by
  intro w
  have htext : Finds w "http://x/a.rs" (.text "f") := by
    rw [finds_of_onWeb (by decide)]
    decide +kernel
  refine ⟨_, isAvailable_eq_true_iff.2 ⟨⟨_, htext⟩, rfl⟩, htext, ?_⟩
  have hload : (lookedFor w "http://x/a.rs").disk.load "http://x/a.rs" =
      .error (.missing "http://x/a.rs") := by
    decide +kernel
  rw [sourceText_of_not_fetches (by decide), Effect.readText]
  exact Effect.bind_of_error (Effect.openFile_of_error hload)

end Workflow

end Covenant
