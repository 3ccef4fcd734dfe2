import Covenant.Proofs.Program.Attachment
import Covenant.Proofs.Workflow.Repeat

/-!
# Replies that pass make no difference to a run

Two runs have the same files, settings and arguments, and the scripts of the second one have more
replies that pass. Main statement: the runs end in the same way, with the same files, log and
conversations. They differ in the repeated requests, with a pause and a notice each, and in the
replies that are left (`generate_waits_out_transients`).
-/

namespace Covenant

/-! ## Before there is a crew -/

/-- Each of the second scripts is the first one with more replies that pass, as many as `inserted`
says. -/
def Late (inserted : Nat → Nat) (scripts scripts' : List Script) : Prop :=
  ∀ i, Delayed (inserted i) (scripts.getD i []) (scripts'.getD i [])

theorem Delayed.refl (script : Script) : Delayed 0 script script := by
  induction script with
  | nil => exact .nil
  | cons r script ih => exact .keep r ih

section Late

variable {inserted : Nat → Nat} {scripts scripts' : List Script}

theorem Late.head (h : Late inserted scripts scripts') :
    Delayed (inserted 0) (scripts.headD []) (scripts'.headD []) := by
  rw [List.headD_eq_getD, List.headD_eq_getD]
  exact h 0

theorem Late.tail (h : Late inserted scripts scripts') :
    Late (fun i => inserted (i + 1)) scripts.tail scripts'.tail := by
  intro i
  have hi := h (i + 1)
  simp only [List.getD_eq_getElem?_getD, List.getElem?_tail] at hi ⊢
  exact hi

end Late

/-- Nothing that is done before there is a crew depends on the scripts. -/
theorem Effect.Setup.mirrors {α : Type} {e : Effect α} {S : List Script → List Script → Prop}
    {G : List Event → List Event → Prop} (h : Setup e) : Mirrors (World.Lags S G 0) e := by
  refine Built.mirrors h (fun _ _ => World.Lags.sim) fun α e he => ?_
  cases he with
  | emit s => exact mirrors_emit s
  | log line => exact mirrors_log line
  | emitError s =>
    refine .modify ?_
    rintro w _ ⟨scripts, out, events, rfl, hrest⟩
    exact ⟨scripts, out, events, rfl, hrest⟩
  | change f =>
    refine .modify ?_
    rintro w _ ⟨scripts, out, events, rfl, hS, hG, hout⟩
    rw [ite_self] at hout
    exact ⟨scripts, out, events, rfl, hS, hG, by rwa [ite_self]⟩
  | openLog =>
    have hopened : Mirrors (World.Lags S G 0) (modify fun w => { w with log := .opened }) := by
      refine .modify ?_
      rintro w _ ⟨scripts, out, events, rfl, hrest⟩
      exact ⟨scripts, out, events, rfl, hrest⟩
    refine .get_bind ?_
    rintro w _ ⟨scripts, out, events, rfl, -⟩
    exact .ite (fun _ => (mirrors_modifyDisk _).bind fun _ => hopened) fun _ => .pure fun _ _ => id

namespace Program

open Effect Crew

/-! ## The run -/

section Run

variable {α : Type} {past : List Event} {inserted : Nat → Nat} {N : Nat}

/-- Both runs have the crew that they started with, if any. -/
structure Early (past : List Event) (inserted : Nat → Nat) (crew : Option Crew)
    (s s' : Scene (Option Crew)) : Prop where
  focus : s.focus = crew
  focus' : s'.focus = crew
  world : s.world.Lags (Late inserted) (Repeats past 0) 0 s'.world

/-- Both have a crew, and the second one is the first with `k` more replies left. -/
def Hired (k : Nat) (crew crew' : Option Crew) : Prop :=
  ∃ c c', crew = some c ∧ crew' = some c' ∧ c.Lags k c'

/-- The runs differ in repeated requests only, with a new crew or without one. -/
def Apart (past : List Event) (inserted : Nat → Nat) (crew : Option Crew)
    (s s' : Scene (Option Crew)) : Prop :=
  Early past inserted crew s s' ∨ Scene.Lags past Hired (inserted 0 + inserted 1) s s'

variable {crew : Option Crew}

theorem parallel_setup {e : Effect α} (h : Setup e) :
    Parallel (Early past inserted crew) (Early past inserted crew) (Apart past inserted crew)
      (Act.lift e) := by
  intro s s' hs
  have hkeep (w w' : World) (hw : w.Lags (Late inserted) (Repeats past 0) 0 w') :
      Early past inserted crew { s with world := w } { s' with world := w' } :=
    ⟨hs.focus, hs.focus', hw⟩
  exact Act.agree_lift ((h.mirrors s.world s'.world hs.world).mono hkeep fun w w' hw =>
    .inl (hkeep w w' hw))

/-- The worker gets the first script and the arbiter the second one. -/
theorem parallel_staff :
    Parallel (Early past inserted crew) (Scene.Lags past Hired (inserted 0 + inserted 1))
      (Apart past inserted crew) staff := by
  rintro ⟨_, w⟩ ⟨_, w'⟩ ⟨rfl, hfocus, scripts, out, events, hw, hlate, hes, hout⟩
  obtain rfl : w' = _ := hw
  refine ⟨rfl, 0, _, Nat.zero_add _, ?_, _, _, rfl, rfl, inserted 0, inserted 1, rfl, ?_, ?_⟩
  · exact ⟨_, out, _, rfl, trivial, (hes.note _).note _, hout⟩
  · exact ⟨_, rfl, _, rfl, hlate.head⟩
  · exact ⟨_, rfl, _, rfl, hlate.tail.head⟩

theorem mirrors_byCrew {act : Act Crew α} (h : Crew.Patient past α act) :
    Mirrors (Scene.Lags past Hired N) (byCrew act) := by
  rintro ⟨_, w⟩ ⟨_, w'⟩ ⟨n, k, hN, hw, crew, crew', rfl, rfl, hk⟩
  have hback (t t' : Scene Crew) (ht : Scene.Lags past Crew.Lags N t t') :
      Scene.Lags past Hired N ⟨some t.focus, t.world⟩ ⟨some t'.focus, t'.world⟩ := by
    obtain ⟨n, k, hN, hw, hk⟩ := ht
    exact ⟨n, k, hN, hw, _, _, rfl, rfl, hk⟩
  show Agree _ _ (Act.zoom (·.getD crew) (fun c _ => some c) act ⟨some crew, w⟩)
    (Act.zoom (·.getD crew') (fun c _ => some c) act ⟨some crew', w'⟩)
  exact Act.agree_zoom ((h N ⟨crew, w⟩ ⟨crew', w'⟩ ⟨n, k, hN, hw, hk⟩).mono hback hback)

theorem Early.plain {s s' : Scene (Option Crew)} (h : Early past inserted crew s s') (b : Bool) :
    Early past inserted crew { s with world := { s.world with plain := b } }
      { s' with world := { s'.world with plain := b } } :=
  ⟨h.focus, h.focus', h.world.plain b⟩

theorem Apart.plain {s s' : Scene (Option Crew)} (h : Apart past inserted crew s s') (b : Bool) :
    Apart past inserted crew { s with world := { s.world with plain := b } }
      { s' with world := { s'.world with plain := b } } := by
  rcases h with h | ⟨n, k, hN, hw, hk⟩
  · exact .inl (h.plain b)
  · exact .inr ⟨n, k, hN, hw.plain b, hk⟩

theorem parallel_styled {act : Act (Option Crew) Unit}
    (h : Parallel (Early past inserted crew) (Apart past inserted crew) (Apart past inserted crew)
      act) :
    Parallel (Early past inserted crew) (Apart past inserted crew) (Apart past inserted crew)
      (styled act) := by
  intro s s' hs
  -- both runs have the same output
  have houtput : s'.world.terminal = s.world.terminal ∧ s'.world.plain = s.world.plain := by
    obtain ⟨scripts, out, events, hw, -⟩ := hs.world
    rw [hw]
    exact ⟨rfl, rfl⟩
  unfold styled
  rw [houtput.1, houtput.2]
  rcases agree_iff.1 (h _ _ (hs.plain (!s.world.terminal))) with
    ⟨a, t, t', ha, ha', ht⟩ | ⟨e, t, t', ha, ha', ht⟩
  · rw [ha, ha']
    exact ⟨rfl, ht.plain s.world.plain⟩
  · rw [ha, ha']
    exact ⟨rfl, ht.plain s.world.plain⟩

/-- What follows the settings. -/
theorem parallel_work :
    Parallel (Early past inserted crew) (Apart past inserted crew) (Apart past inserted crew) (do
      let w : World := (← get).world
      Effect.log (w.clock ++ " start annotating")
      staff
      byCrew Crew.greet
      byCrew (Workflow.processFiles (← Effect.settings).files)) := by
  have hcrew : Mirrors (Scene.Lags past Hired (inserted 0 + inserted 1)) (do
      byCrew Crew.greet
      byCrew (Workflow.processFiles (← Effect.settings).files)) :=
    (mirrors_byCrew Crew.patient_greet).bind fun _ => (mirrors_effect plain_settings).bind fun st =>
      mirrors_byCrew (Workflow.patient_processFiles st.files)
  refine .get_bind fun s s' hs => ?_
  obtain ⟨_, out, events, hw, -⟩ := hs.world
  rw [hw]
  exact (parallel_setup (.base (.log _))).bind fun _ => parallel_staff.bind fun _ =>
    hcrew.mono (fun _ _ => id) (fun _ _ => .inr) fun _ _ => .inr

theorem parallel_generate (arguments : List String) :
    Parallel (Early past inserted crew) (Apart past inserted crew) (Apart past inserted crew)
      (generate arguments) := by
  refine .tryCatch (parallel_styled ?_) fun e => ?_
  · refine (parallel_setup (Settings.setup_configureFrom arguments)).bind fun _ =>
      (parallel_setup setup_settings).bind fun st => .ite (fun _ => ?_) fun _ => parallel_work
    exact (parallel_setup setup_printSettings).bind fun _ => parallel_work
  · cases e with
    | fault f =>
      cases f with
      | interrupted => exact fun _ _ hs => ⟨rfl, hs⟩
      | _ => exact .throw fun _ _ => id
    | exit n => exact .throw fun _ _ => id

/-- In a run over any files, more replies that pass, anywhere in the scripts, make no difference to
how the run ends, to the files, the log and the rest of the world, nor to the crew but for the
replies that it has left. There are `n` more requests, each an attempt at the request that follows
it and with a pause after it, and `n` more notices if these are printed. If a crew was hired, then
all the other replies that were added are left. -/
theorem generate_waits_out_transients {arguments : List String} {crew crew₁ crew₂ : Option Crew}
    {w w₁ w₂ : World} {r₁ r₂ : Except Stop Unit} {scripts : List Script} {inserted : Nat → Nat}
    (hscripts : Late inserted w.scripts scripts)
    (hrun₁ : (generate arguments).runOn crew w = (r₁, crew₁, w₁))
    (hrun₂ : (generate arguments).runOn crew { w with scripts := scripts } = (r₂, crew₂, w₂)) :
    r₂ = r₁ ∧ ∃ n k left out events,
      w₂ = { w₁ with scripts := left, trace := { w₁.trace with out := out, events := events } } ∧
      Repeats w.trace.events n w₁.trace.events events ∧
      (if w₁.settings.verbose then Noticed n w₁.trace.out out else out = w₁.trace.out) ∧
      ((n = 0 ∧ crew₁ = crew ∧ crew₂ = crew) ∨ (n + k = inserted 0 + inserted 1 ∧
        ∃ c₁ c₂, crew₁ = some c₁ ∧ crew₂ = some c₂ ∧ c₁.Lags k c₂)) := by
  have hstart : Early w.trace.events inserted crew ⟨crew, w⟩
      ⟨crew, { w with scripts := scripts }⟩ :=
    ⟨rfl, rfl, scripts, _, _, rfl, hscripts, .start, by rw [ite_self]; exact .refl _⟩
  obtain ⟨hr, hapart⟩ := Act.of_agree (parallel_generate arguments _ _ hstart)
  rw [hrun₁, hrun₂] at hr hapart
  have hprinted {n : Nat} {out : String}
      (h : Noticed (if w₁.settings.verbose then n else 0) w₁.trace.out out) :
      if w₁.settings.verbose then Noticed n w₁.trace.out out else out = w₁.trace.out := by
    cases hv : w₁.settings.verbose with
    | true => rwa [hv] at h
    | false =>
      rw [hv] at h
      exact h.eq_of_zero
  refine ⟨hr, ?_⟩
  rcases hapart with h | ⟨n, k, hN, ⟨left, out, events, hw, -, hes, hout⟩, hcrew⟩
  · obtain ⟨left, out, events, hw, -, hes, hout⟩ := h.world
    exact ⟨0, 0, left, out, events, hw, hes, hprinted hout, .inl ⟨rfl, h.focus, h.focus'⟩⟩
  · exact ⟨n, k, left, out, events, hw, hes, hprinted hout, .inr ⟨hN, hcrew⟩⟩

end Run

/-- The worker's model rejects the first request about a file, and the arbiter's gives the file up
after two rejections. -/
def strained : List Script :=
  [Workflow.replies ["ok"] ++ .refusal "ValidationException" (some "too long") ::
      Workflow.replies ["1", "2", "3", "4", "5", "6"],
    Workflow.replies ["ok"] ++ [.refusal "ValidationException" (some "too long"),
      .refusal "ValidationException" (some "Input is too long for requested model")]]

/-- The same with replies that pass: before the first answer, after the worker's rejection and
between the two of the arbiter. -/
def strainedLate : List Script :=
  [.timeout :: Workflow.replies ["ok"] ++ .refusal "ValidationException" (some "too long") ::
      .refusal "ThrottlingException" none :: .timeout ::
      Workflow.replies ["1", "2", "3", "4", "5", "6"],
    Workflow.replies ["ok"] ++ [.refusal "ValidationException" (some "too long"),
      .refusal "ServiceUnavailableException" (some "later"),
      .refusal "ValidationException" (some "Input is too long for requested model")]]

/-- How many replies that pass were added. -/
def addedTo : Nat → Nat
  | 0 => 3
  | 1 => 1
  | _ => 0

theorem late_strained : Late addedTo strained strainedLate := by
  intro i
  match i with
  | 0 => exact .insert rfl (.keep _ (.keep _ (.insert rfl (.insert rfl (.refl _)))))
  | 1 => exact .keep _ (.keep _ (.insert rfl (.refl _)))
  | _ + 2 => exact .nil

/-- Pauses among the events. -/
def pauses (es : List Event) : Nat :=
  es.countP fun e => match e with
    | .wait 240 => true
    | _ => false

/-- A run over two files with these scripts. -/
def strainedRun (scripts : List Script) : Except Stop Unit × Option Crew × World :=
  (generate ["--files", "a.rs\nb.rs", "--source", "src/"]).runOn none
    { twoFiles with scripts := scripts }

theorem strainedRun_late : (fun run => run.2.1.isSome && pauses run.2.2.trace.events == 4)
    (strainedRun strainedLate) = true := by
  decide +kernel

/-- All four replies that were added are waited out, and nothing else changes. -/
theorem generate_waits_out_between_rejections :
    ∃ r crew₁ crew₂ w₁ w₂ n k c₁ c₂,
      strainedRun strained = (r, crew₁, w₁) ∧ strainedRun strainedLate = (r, crew₂, w₂) ∧
      w₂.disk = w₁.disk ∧ w₂.trace.log = w₁.trace.log ∧ n + k = 4 ∧
      Repeats [] n w₁.trace.events w₂.trace.events ∧ pauses w₂.trace.events = 4 ∧
      crew₁ = some c₁ ∧ crew₂ = some c₂ ∧ c₁.Lags k c₂ := by
  have heval := strainedRun_late
  generalize hrun₁ : strainedRun strained = run₁ at *
  generalize hrun₂ : strainedRun strainedLate = run₂ at *
  obtain ⟨r₁, crew₁, w₁⟩ := run₁
  obtain ⟨r₂, crew₂, w₂⟩ := run₂
  simp only [Bool.and_eq_true, beq_iff_eq] at heval
  obtain ⟨hsome, hpauses⟩ := heval
  obtain ⟨rfl, n, k, left, out, events, rfl, hes, hout, hcrew⟩ :=
    generate_waits_out_transients late_strained hrun₁ hrun₂
  rcases hcrew with ⟨-, -, rfl⟩ | ⟨hn, c₁, c₂, rfl, rfl, hk⟩
  · cases hsome
  · exact ⟨r₂, _, _, w₁, _, n, k, c₁, c₂, rfl, rfl, rfl, rfl, hn, hes, hpauses, rfl, rfl, hk⟩

end Program

end Covenant
