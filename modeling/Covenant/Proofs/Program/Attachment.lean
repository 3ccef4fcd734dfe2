import Covenant.Proofs.Program.Run
import Covenant.Proofs.Workflow.Attachment
import Covenant.Proofs.Workflow.Showing

/-!
# One attached file in every request of a program run

A run takes its settings, hires a crew and greets it, and then goes from file to file. Main
statement: every request has the copy of the file attached that is worked on, at the mark, and no
other document; the greetings have none (`generate_attaches`).
-/

namespace Covenant

open Conversation Crew

namespace Program

/-! ## Hiring and greeting -/

section Crew

variable {st : Settings} {past : List Event}

/-- The history before any file. -/
abbrev BeforeFiles (st : Settings) (past : List Event) : World → Prop :=
  World.Tells past (AboutFile st) Untaken

theorem beforeFiles_said {w w' : World} (hw : BeforeFiles st past w)
    (hl : w.Leads (Said Clear) w') : BeforeFiles st past w' := by
  refine hw.leads hl fun es e hes he => ?_
  cases he with
  | @request c hc =>
    refine ⟨hes.concat (by simp [Conversation.request]), ?_⟩
    rintro model system messages mark heq
    obtain ⟨-, -, rfl, rfl⟩ := Event.request.inj heq
    exact .inl ⟨hes, hc.bare.2⟩
  | wait n => exact ⟨hes.concat (Aside.wait n).ne_take, (Aside.wait n).aboutFile⟩
  | close => exact ⟨hes.concat Aside.close.ne_take, Aside.close.aboutFile⟩

/-- The scripts that are left are those of assistants. -/
def Assisted (w : World) : Prop := ∀ script ∈ w.scripts, ∀ r ∈ script, r.isByAssistant = true

/-- A new conversation has no document. -/
theorem ends_connect (model : Entry) (region : Option String) (promptDir : String) {w : World}
    (hst : w.settings = st) (hw : BeforeFiles st past w) (hs : Assisted w) :
    Ends (connect model region promptDir) w
      (fun c w' => c.Clear ∧ w'.settings = st ∧ BeforeFiles st past w' ∧ Assisted w')
      fun _ _ => False := by
  have hscript : ∀ r ∈ w.scripts.headD [], r.isByAssistant = true := by
    cases hws : w.scripts with
    | nil => simp
    | cons script scripts =>
      exact hs script (by rw [hws]; exact List.mem_cons_self)
  have hnoted : BeforeFiles st past (w.noting (.connect region)) := hw.noting fun es hes =>
    ⟨hes.concat (Aside.connect region).ne_take, (Aside.connect region).aboutFile⟩
  refine ⟨⟨hscript, rfl, by simp⟩, hst, hnoted, ?_⟩
  exact fun script hm => hs script (List.mem_of_mem_tail hm)

/-- A new crew has not been shown a file. -/
theorem ends_hire {w : World} (hst : w.settings = st) (hw : BeforeFiles st past w)
    (hs : Assisted w) :
    Ends Crew.hire w (fun crew w' => crew.worker.conversation.Clear ∧
      crew.arbiter.conversation.Clear ∧ w'.settings = st ∧ BeforeFiles st past w')
      fun _ _ => False := by
  have hworker : Ends Worker.hire w (fun worker w' => worker.conversation.Clear ∧
      w'.settings = st ∧ BeforeFiles st past w' ∧ Assisted w') fun _ _ => False :=
    ends_bind.2 (ends_bind.2 (ends_connect _ _ _ hst hw hs))
  refine hworker.bind fun worker w₁ h₁ => ?_
  have harbiter : Ends Arbiter.hire w₁ (fun arbiter w' => arbiter.conversation.Clear ∧
      w'.settings = st ∧ BeforeFiles st past w' ∧ Assisted w') fun _ _ => False :=
    ends_bind.2 (ends_bind.2 (ends_connect _ _ _ h₁.2.1 h₁.2.2.1 h₁.2.2.2))
  exact harbiter.bind fun arbiter w₂ h₂ => ⟨h₁.1, h₂.1, h₂.2.1, h₂.2.2.1⟩

/-- A greeting has no document. -/
theorem leads_greeting {σ : Type} {view : σ → Conversation} {update : Conversation → σ → σ}
    (hview : ∀ c x, view (update c x) = c) :
    (do
      Act.zoom view update (setSystem "Hi!" "")
      Act.zoom view update Conversation.greet : Act σ String).Leads st (Said Clear)
      (fun x => (view x).Clear) (fun _ x => (view x).Clear) fun _ => True := by
  refine .bind (K := fun _ x => (view x).Clear) ?_ fun _ => ?_
  · exact Act.leads_zoom (stable_clear.setSystem _ _) (fun _ => id)
      (fun x _ c _ hc => by rwa [hview]) fun _ _ _ _ => trivial
  · exact Act.leads_zoom stable_clear.greet (fun _ => id) (fun x _ c _ hc => by rwa [hview])
      fun _ _ _ _ => trivial

theorem leads_greet :
    Crew.greet.Leads st (Said Clear)
      (fun crew => crew.worker.conversation.Clear ∧ crew.arbiter.conversation.Clear)
      (fun _ crew => crew.worker.conversation.Clear ∧ crew.arbiter.conversation.Clear)
      fun _ => True := by
  refine .bind (K := fun _ crew => crew.worker.conversation.Clear ∧
    crew.arbiter.conversation.Clear) ?_ fun _ => .bind (K := fun _ crew =>
    crew.worker.conversation.Clear ∧ crew.arbiter.conversation.Clear) ?_ fun _ => .pure fun _ => id
  · exact Act.leads_zoom (leads_greeting fun _ _ => rfl) (fun _ h => h.1)
      (fun _ _ _ h hw => ⟨hw, h.2⟩) fun _ _ _ _ => trivial
  · exact Act.leads_zoom (leads_greeting fun _ _ => rfl) (fun _ h => h.2)
      (fun _ _ _ h ha => ⟨h.1, ha⟩) fun _ _ _ _ => trivial

end Crew

/-! ## A run of the program -/

section Run

/-- The history of a run of the program: every request is about the file that is worked on. -/
abbrev Told (past : List Event) (w : World) : Prop := OffFile w.settings past w

theorem ends_generate (arguments : List String) {crew : Option Crew} {w : World}
    (hs : Assisted w) :
    Ends (generate arguments) ⟨crew, w⟩ (fun _ t => Told w.trace.events t.world)
      fun _ t => Told w.trace.events t.world := by
  have htold {st : Settings} {w' : World} (h : w'.settings = st)
      (hw : OffFile st w.trace.events w') : Told w.trace.events w' := by
    rw [Told, h]
    exact hw
  refine ends_generate_of (p := fun s => ∃ st, Act.At st (fun crew =>
      crew.worker.conversation.Clear ∧ crew.arbiter.conversation.Clear)
      (BeforeFiles st w.trace.events) s) (q := fun s => ∃ st, Ready st w.trace.events s) arguments
    (fun _ _ h => h) (fun w' h => ?_) (fun w' h => ?_) ?_ ?_
  · exact ⟨[], by rw [h.events, List.append_nil], trivial, along_nil _⟩
  · have hbefore : BeforeFiles w'.settings w.trace.events w' :=
      ⟨[], by rw [List.append_nil]; exact h.events, by simp [Untaken], along_nil _⟩
    have hassisted : Assisted w' := fun script hm => hs script (by rwa [h.scripts] at hm)
    exact (ends_hire rfl hbefore hassisted).mono
      (fun _ _ h => ⟨_, h.2.2.1, ⟨h.1, h.2.1⟩, h.2.2.2⟩) fun _ _ => False.elim
  · rintro s ⟨st, hs⟩
    refine (leads_greet.brings beforeFiles_said s hs).mono (fun _ t ht => ?_) fun _ t ht => ?_
    · exact ⟨st, ht.settings, ⟨.inl ht.focus.1, .inl ht.focus.2⟩, ht.world.mono fun _ _ => trivial⟩
    · exact htold ht.settings (ht.world.mono fun _ _ => trivial)
  · rintro files s ⟨st, hs⟩
    exact (brings_processFiles files s hs).mono (fun _ t ht => htold ht.settings ht.world)
      fun _ t ht => htold ht.settings ht.world

/-- In a run over any files, with replies by assistants, a request has the copy of the file attached
that is worked on, at the mark, and no other message of the user has a document. A request before
the first file has no document at all. -/
theorem generate_attaches {arguments : List String} {crew crew' : Option Crew} {w w' : World}
    {r : Except Stop Unit} {before after : List Event} {model : Entry} {system : List String}
    {messages : List Message} {mark : Int}
    (hscripts : ∀ script ∈ w.scripts, ∀ reply ∈ script, reply.isByAssistant = true)
    (hrun : (generate arguments).runOn crew w = (r, crew', w'))
    (hevents : w'.trace.events =
      w.trace.events ++ (before ++ .request model system messages mark :: after)) :
    (Untaken before ∧ ∀ m ∈ messages, m.isAttachment = false) ∨
    ∃ file source, Copied w'.settings file source before ∧
      Attaches (Path.stem (w'.settings.copyPath file)) (Text.base64 (Content.utf8 source))
        messages mark := by
  obtain ⟨es, hes, -, hall⟩ := Act.of_runOn (T := fun _ => Told w.trace.events)
    (ends_generate arguments hscripts) hrun
  obtain rfl : es = before ++ .request model system messages mark :: after :=
    List.append_cancel_left (hes.symm.trans hevents)
  exact hall before _ after rfl model system messages mark rfl

end Run

/-- A world with two files, in which the first one turns out to be too long for the worker. -/
def twoFiles : World :=
  let tooLong : Reply :=
    .refusal "ValidationException" (some "Input is too long for requested model")
  { Workflow.desk Settings.default [("src/a.rs", "fn a() \x7b\x7d\n"),
      ("src/b.rs", "fn b() \x7b\x7d\n"), ("prompts/worker_type_invariant.txt", "t")] with
    scripts := [Workflow.replies ["ok", "1", "2", "3", "4"] ++ [tooLong, tooLong],
      Workflow.replies ["ok"]] }

/-- Whether a file was taken on by this path. -/
def takes (file : String) (es : List Event) : Bool :=
  es.any fun e => match e with
    | .take f _ => f == file
    | _ => false

theorem not_untaken_of_takes {file : String} {es : List Event} (h : takes file es = true) :
    ¬ Untaken es := by
  obtain ⟨e, hm, he⟩ := List.any_eq_true.1 h
  cases e with
  | take f t => exact fun hno => hno f t hm
  | _ => cases he

/-- The first file is given up, and the request about the second one has its copy only. -/
theorem generate_attaches_after_long_file :
    ∃ r crew w' before model system messages mark after,
      (generate ["--files", "a.rs\nb.rs", "--source", "src/"]).runOn none twoFiles =
        (r, crew, w') ∧
      w'.trace.events = before ++ .request model system messages mark :: after ∧
      takes "src/a.rs" before = true ∧ takes "src/b.rs" before = true ∧
      ∃ file source, Copied w'.settings file source before ∧
        Attaches (Path.stem (w'.settings.copyPath file)) (Text.base64 (Content.utf8 source))
          messages mark := by
  have hscripts : ∀ script ∈ twoFiles.scripts, ∀ reply ∈ script, reply.isByAssistant = true := by
    decide +kernel
  have heval : (fun es => requestAt es 16 (fun _ => true) && takes "src/a.rs" (es.take 16) &&
      takes "src/b.rs" (es.take 16)) ((generate ["--files", "a.rs\nb.rs", "--source", "src/"]).runOn
        none twoFiles).2.2.trace.events = true := by
    decide +kernel
  obtain ⟨⟨r, crew, w'⟩, hrun⟩ : ∃ run, (generate ["--files", "a.rs\nb.rs", "--source",
    "src/"]).runOn none twoFiles = run := ⟨_, rfl⟩
  rw [hrun] at heval
  simp only [Bool.and_eq_true] at heval
  obtain ⟨⟨hreq, ha⟩, hb⟩ := heval
  obtain ⟨model, system, messages, mark, -, hes⟩ := exists_of_requestAt hreq
  refine ⟨r, crew, w', _, model, system, messages, mark, _, hrun, hes, ha, hb, ?_⟩
  exact (generate_attaches hscripts hrun hes).resolve_left fun h => not_untaken_of_takes ha h.1

end Program

end Covenant
