import Covenant.Proofs.Conversation.Start
import Covenant.Proofs.Program.Attachment
import Covenant.Proofs.Workflow.Upkeep

/-!
# The first message of every request of a program run

The worker and the arbiter each have a conversation, and both are shown every file. Main statement:
every request of a run begins with a message of the user, or with the reply that followed an earlier
file to which the conversation had been cut down (`generate_begins_with_user`). The second does
happen (`generate_begins_with_reply`).
-/

namespace Covenant

open Conversation Crew

section Talk

variable {α σ : Type} {past : List Event} {Φ : List Event → Prop}
  {J J₁ J₂ : List Event → Conversation → Prop}

/-- A conversation as part of something larger. -/
theorem brings_within {view : σ → Conversation} {update : Conversation → σ → σ}
    (hview : ∀ c x, view (update c x) = c) {act : Act Conversation α}
    (h : Brings (Tale past Φ J) (fun _ => Tale past Φ J₁) (fun _ => Tale past Φ J₂) act) :
    Brings (fun s => Tale past Φ J ⟨view s.focus, s.world⟩)
      (fun _ s => Tale past Φ J₁ ⟨view s.focus, s.world⟩)
      (fun _ s => Tale past Φ J₂ ⟨view s.focus, s.world⟩) (Act.zoom view update act) :=
  Act.brings_zoom h (fun _ => id) (fun _ _ _ _ ht => by rwa [hview])
    fun _ _ _ _ ht => by rwa [hview]

theorem keeps_greeting {view : σ → Conversation} {update : Conversation → σ → σ}
    (hview : ∀ c x, view (update c x) = c) (hΦ : ∀ {es} e, Φ es → Φ (es ++ [e])) :
    (do
      Act.zoom view update (setSystem "Hi!" "")
      Act.zoom view update Conversation.greet : Act σ String).Keeps
      fun s => Tale past Φ Closed ⟨view s.focus, s.world⟩ := by
  have hgreet : Conversation.greet.Keeps (Tale past Φ Closed) :=
    .bind (brings_change fun h => lasting_closed.tell _ h) fun _ => brings_ask hΦ
  exact (brings_within hview (lasting_closed.setSystem hΦ _ _)).bind fun _ =>
    brings_within hview hgreet

end Talk

/-! ## The worker -/

namespace Worker

variable {α : Type} {past : List Event} {Φ Φ' : List Event → Prop}
  {J J₁ J₂ : List Event → Conversation → Prop} (hΦ : ∀ {es} e, Φ es → Φ (es ++ [e]))

/-- The tale of the worker's conversation. -/
abbrev Tells (past : List Event) (Φ : List Event → Prop) (J : List Event → Conversation → Prop)
    (s : Scene Worker) : Prop := Tale past Φ J ⟨s.focus.conversation, s.world⟩

theorem brings_talking {act : Act Conversation α}
    (h : Brings (Tale past Φ J) (fun _ => Tale past Φ J₁) (fun _ => Tale past Φ J₂) act) :
    Brings (Tells past Φ J) (fun _ => Tells past Φ J₁) (fun _ => Tells past Φ J₂) (talk act) :=
  brings_within (fun _ _ => rfl) h

include hΦ

theorem files_tells (hJ : ∀ {es c} e, J es c → J (es ++ [e]) c) : Files (Tells past Φ J) where
  world hs hl := World.Tells.follows hs hl fun _ e hes he =>
    ⟨⟨hJ e hes.1, hΦ e hes.2⟩, he.fromUser⟩
  drafts _ _ hs := hs

theorem upkeep_tells : Upkeep (Tells past Φ Closed) where
  toFiles := files_tells hΦ lasting_closed.concat
  tell text file := brings_talking (lasting_closed.tellBoth hΦ text file)
  ask := brings_talking (brings_ask hΦ)

/-- The next file is taken on after all requests so far. -/
theorem brings_take {file : String} (hΦ' : ∀ {es} text, Φ es → Φ' (es ++ [.take file text])) :
    Brings (Tells past Φ Closed) (fun _ => Tells past Φ' Primed) (fun _ => Tells past Φ Closed)
      (take file) := by
  have h : Files (Tells past Φ Closed) := files_tells hΦ lasting_closed.concat
  have hname (name : String) : (Act.modifyFocus fun w : Worker => { w with
      contracts := some "", harnesses := some "", file := file,
      draftName := some (draftNameOf name file) }).Keeps (Tells past Φ Closed) := fun _ hs => hs
  have hsource (text : String) : (Act.modifyFocus fun w : Worker =>
      { w with source := some text }).Keeps (Tells past Φ Closed) := fun _ hs => hs
  refine (h.keeps routine_settings).bind fun st => (hname st.sourceDir).bind fun _ =>
    (h.keeps (routine_effect (plain_sourceText file))).bind fun text =>
    (hsource text).bind fun _ => ?_
  exact fun s hs => World.Tells.noting hs fun es hes =>
    ⟨⟨hes.1.primed file text, hΦ' text hes.2⟩, fun _ _ _ _ he => by cases he⟩

theorem brings_draftContracts_primed :
    Brings (Tells past Φ Primed) (fun _ => Tells past Φ Closed) (fun _ => Tells past Φ Closed)
      draftContracts :=
  (upkeep_tells hΦ).draftContracts (files_tells hΦ lasting_primed.concat)
    (fun _ hs => hs.mono Primed.closed)
    (fun text file => brings_talking (lasting_primed.tellBoth hΦ text file))
    (fun text file => brings_talking (lasting_primed.setSystem hΦ text file))
    (files_tells hΦ fun e h => Unmarked.concat h e) (fun _ hs => hs.mono Unmarked.closed)
    (brings_talking brings_dropMarked)
    (fun text path => brings_talking (brings_attach hΦ text path)) (brings_talking brings_mark)

end Worker

/-! ## The arbiter -/

namespace Arbiter

variable {α : Type} {past : List Event} {Φ : List Event → Prop}
  {J J₁ J₂ : List Event → Conversation → Prop} (hΦ : ∀ {es} e, Φ es → Φ (es ++ [e]))

/-- The tale of the arbiter's conversation. -/
abbrev Tells (past : List Event) (Φ : List Event → Prop) (J : List Event → Conversation → Prop)
    (s : Scene Arbiter) : Prop := Tale past Φ J ⟨s.focus.conversation, s.world⟩

theorem brings_talking {act : Act Conversation α}
    (h : Brings (Tale past Φ J) (fun _ => Tale past Φ J₁) (fun _ => Tale past Φ J₂) act) :
    Brings (Tells past Φ J) (fun _ => Tells past Φ J₁) (fun _ => Tells past Φ J₂) (talk act) :=
  brings_within (fun _ _ => rfl) h

include hΦ

theorem files_tells (hJ : ∀ {es c} e, J es c → J (es ++ [e]) c) : Files (Tells past Φ J) where
  world hs hl := World.Tells.follows hs hl fun _ e hes he =>
    ⟨⟨hJ e hes.1, hΦ e hes.2⟩, he.fromUser⟩
  grade _ hs := hs

theorem upkeep_tells : Upkeep (Tells past Φ Closed) where
  toFiles := files_tells hΦ lasting_closed.concat
  tell text file := brings_talking (lasting_closed.tellBoth hΦ text file)
  ask := brings_talking (brings_ask hΦ)

theorem brings_judgeContracts_primed (path contracts : String) :
    Brings (Tells past Φ Primed) (fun _ => Tells past Φ Closed) (fun _ => Tells past Φ Closed)
      (judgeContracts path contracts) :=
  (upkeep_tells hΦ).judgeContracts (files_tells hΦ lasting_primed.concat)
    (fun _ hs => hs.mono Primed.closed)
    (fun text file => brings_talking (lasting_primed.setSystem hΦ text file))
    (brings_talking brings_dropMarked)
    (fun text path => brings_talking (brings_attach hΦ text path)) (brings_talking brings_mark)
    path contracts

end Arbiter

/-! ## The crew -/

namespace Crew

variable {α : Type} {past : List Event} {J J' : List Event → Conversation → Prop}

/-- The worker's conversation is in `J` and the arbiter's in `J'`, and every request began as it
should. -/
abbrev Tales (past : List Event) (J J' : List Event → Conversation → Prop) (s : Scene Crew) :
    Prop :=
  s.world.Tells past FromUser fun es =>
    J es s.focus.worker.conversation ∧ J' es s.focus.arbiter.conversation

theorem withArbiter_tales (a : Arbiter) :
    WithArbiter (Tales past J J') a = Worker.Tells past (fun es => J' es a.conversation) J := rfl

theorem withWorker_tales (w : Worker) :
    WithWorker (Tales past J J') w = Arbiter.Tells past (fun es => J es w.conversation) J' := by
  funext s
  exact propext ⟨fun h => World.Tells.mono h fun _ => And.symm,
    fun h => World.Tells.mono h fun _ => And.symm⟩

theorem upkeep_tales : Crew.Upkeep (Tales past Closed Closed) where
  worker a := by
    rw [withArbiter_tales]
    exact Worker.upkeep_tells fun e h => Closed.concat h e
  arbiter w := by
    rw [withWorker_tales]
    exact Arbiter.upkeep_tells fun e h => Closed.concat h e

/-- Between the taking of a file and its showing, both conversations are primed. -/
theorem keeps_draft (file : String) : (Workflow.draft file).Keeps (Tales past Closed Closed) := by
  have hclosed (s : Scene Crew) (hs : Tales past Closed Primed s) : Tales past Closed Closed s :=
    World.Tells.mono hs fun _ hes => ⟨hes.1, hes.2.closed⟩
  have htake : Brings (Tales past Closed Closed) (fun _ => Tales past Primed Primed)
      (fun _ => Tales past Closed Closed) (byWorker (Worker.take file)) := by
    refine brings_byWorker_beside fun a => ?_
    rw [withArbiter_tales, withArbiter_tales]
    exact Worker.brings_take (fun e h => Closed.concat h e) fun text h => Closed.primed h file text
  have hdraft : Brings (Tales past Primed Primed) (fun _ => Tales past Closed Primed)
      (fun _ => Tales past Closed Primed) (byWorker Worker.draftContracts) := by
    refine brings_byWorker_beside fun a => ?_
    rw [withArbiter_tales, withArbiter_tales]
    exact Worker.brings_draftContracts_primed fun e h => Primed.concat h e
  have hworker (a : Arbiter) : Worker.Upkeep (WithArbiter (Tales past Closed Primed) a) := by
    rw [withArbiter_tales]
    exact Worker.upkeep_tells fun e h => Primed.concat h e
  have hjudge (path contracts : String) : Brings (Tales past Closed Primed)
      (fun _ => Tales past Closed Closed) (fun _ => Tales past Closed Closed)
      (byArbiter (Arbiter.judgeContracts path contracts)) := by
    refine brings_byArbiter_beside fun w => ?_
    rw [withWorker_tales, withWorker_tales]
    exact Arbiter.brings_judgeContracts_primed (fun e h => Closed.concat h e) path contracts
  exact upkeep_tales.draft hclosed htake
    (hdraft.mono (fun _ => id) (fun _ _ => id) fun _ => hclosed) hworker hjudge

theorem keeps_greet : Crew.greet.Keeps (Tales past Closed Closed) := by
  have hworker : (byWorker Worker.greet).Keeps (Tales past Closed Closed) := by
    refine brings_byWorker_beside fun a => ?_
    rw [withArbiter_tales]
    exact keeps_greeting (fun _ _ => rfl) fun e h => Closed.concat h e
  have harbiter : (byArbiter Arbiter.greet).Keeps (Tales past Closed Closed) := by
    refine brings_byArbiter_beside fun w => ?_
    rw [withWorker_tales]
    exact keeps_greeting (fun _ _ => rfl) fun e h => Closed.concat h e
  exact hworker.bind fun _ => harbiter.bind fun _ => brings_done _

end Crew

/-! ## A run of the program -/

namespace Program

/-- A new conversation has no message, so it may go on in any way. -/
theorem ends_connect_new (model : Entry) (region : Option String) (promptDir : String) {w : World}
    (hs : Assisted w) :
    Ends (connect model region promptDir) w
      (fun c w' => (∀ es, Closed es c) ∧ Assisted w' ∧ w.Leads Aside w') fun _ _ => False := by
  have hscript : ∀ r ∈ w.scripts.headD [], r.isByAssistant = true := by
    cases hws : w.scripts with
    | nil => simp
    | cons script scripts =>
      exact hs script (by rw [hws]; exact List.mem_cons_self)
  have hnoted : w.Leads Aside (w.noting (.connect region)) :=
    .record (.connect region) fun _ => rfl
  refine ⟨fun es => ⟨⟨hscript, ?_, .inl rfl, ?_⟩, owes_of_mark rfl⟩, ?_,
    ⟨rfl, rfl, rfl, hnoted.events⟩⟩
  · exact fun m hm => absurd hm List.not_mem_nil
  · exact fun x rest hx => absurd hx (List.cons_ne_nil x rest).symm
  · exact fun script hm => hs script (List.mem_of_mem_tail hm)

theorem ends_hire_new {w : World} (hs : Assisted w) :
    Ends Crew.hire w (fun crew w' => Tales w.trace.events Closed Closed ⟨crew, w'⟩)
      fun _ _ => False := by
  have hworker : Ends Worker.hire w (fun worker w' => (∀ es, Closed es worker.conversation) ∧
      Assisted w' ∧ w.Leads Aside w') fun _ _ => False :=
    ends_bind.2 (ends_bind.2 (ends_connect_new _ _ _ hs))
  refine hworker.bind fun worker w₁ h₁ => ?_
  have harbiter : Ends Arbiter.hire w₁ (fun arbiter w' => (∀ es, Closed es arbiter.conversation) ∧
      Assisted w' ∧ w₁.Leads Aside w') fun _ _ => False :=
    ends_bind.2 (ends_bind.2 (ends_connect_new _ _ _ h₁.2.1))
  refine harbiter.bind fun arbiter w₂ h₂ => ?_
  exact World.Tells.leads (.start w (Φ := fun es => Closed es worker.conversation ∧
    Closed es arbiter.conversation) ⟨h₁.1 [], h₂.1 []⟩) (h₁.2.2.trans h₂.2.2)
    fun es e _ he => ⟨⟨h₁.1 _, h₂.1 _⟩, he.fromUser⟩

theorem ends_generate_fromUser (arguments : List String) {crew : Option Crew} {w : World}
    (hs : Assisted w) :
    Ends (generate arguments) ⟨crew, w⟩
      (fun _ t => t.world.Tells w.trace.events FromUser fun _ => True)
      fun _ t => t.world.Tells w.trace.events FromUser fun _ => True := by
  have htold (s : Scene Crew) (hs : Tales w.trace.events Closed Closed s) :
      s.world.Tells w.trace.events FromUser fun _ => True := hs.mono fun _ _ => trivial
  refine ends_generate_of (p := Tales w.trace.events Closed Closed)
    (q := Tales w.trace.events Closed Closed) arguments (fun _ _ h => h) (fun w' h => ?_)
    (fun w' h => ?_) ?_ fun files => ?_
  · exact ⟨[], by rw [h.events, List.append_nil], trivial, along_nil _⟩
  · have hassisted : Assisted w' := fun script hm => hs script (by rwa [h.scripts] at hm)
    rw [← h.events]
    exact (ends_hire_new hassisted).mono (fun _ _ => id) fun _ _ => False.elim
  · exact keeps_greet.mono (fun _ => id) (fun _ _ => id) fun _ => htold
  · exact (upkeep_tales.processFiles keeps_draft files).mono (fun _ => id) (fun _ => htold)
      fun _ => htold

/-- In a run over any files, with replies by assistants, every request has a first message, which
has the role of the user. Or else it is a reply of the assistant, not marked, and a file was taken
on after a request of the same model that began with the marked message, of the user, and went on
with that reply or had nothing else. -/
theorem generate_begins_with_user {arguments : List String} {crew crew' : Option Crew}
    {w w' : World} {r : Except Stop Unit} {before after : List Event} {model : Entry}
    {system : List String} {messages : List Message} {mark : Int}
    (hscripts : ∀ script ∈ w.scripts, ∀ reply ∈ script, reply.isByAssistant = true)
    (hrun : (generate arguments).runOn crew w = (r, crew', w'))
    (hevents : w'.trace.events =
      w.trace.events ++ (before ++ .request model system messages mark :: after)) :
    ∃ first rest, messages = first :: rest ∧ (first.isByUser = true ∨
      ∃ m, first = .reply m ∧ m.hasRole "assistant" = true ∧ mark ≠ 0 ∧
        Outlived model before m) := by
  obtain ⟨es, hes, -, hall⟩ :=
    Act.of_runOn (T := fun _ w' => w'.Tells w.trace.events FromUser fun _ => True)
      (ends_generate_fromUser arguments hscripts) hrun
  obtain rfl : es = before ++ .request model system messages mark :: after :=
    List.append_cancel_left (hes.symm.trans hevents)
  exact hall before _ after rfl model system messages mark rfl

/-- A world with two files. The worker's model rejects the first request about the first file, and
the arbiter's gives that file up. -/
def trimmed : World :=
  let tooLong : Reply :=
    .refusal "ValidationException" (some "Input is too long for requested model")
  { twoFiles with
    scripts :=
      [Workflow.replies ["ok"] ++ tooLong :: Workflow.replies ["1", "2", "3", "4", "5", "6"],
        Workflow.replies ["ok"] ++ [tooLong, tooLong]] }

/-- Whether a request begins with a message of the user. -/
def beginsByUser (messages : List Message) : Bool := messages.head?.any (·.isByUser)

theorem requestAt_trimmed :
    requestAt ((generate ["--files", "a.rs\nb.rs", "--source", "src/"]).runOn none
      trimmed).2.2.trace.events 19 (fun ms => !ms.isEmpty && !beginsByUser ms) = true := by
  decide +kernel

/-- The request about the second file begins with the reply to the first one. -/
theorem generate_begins_with_user_after_cut :
    ∃ r crew w' before model system m rest mark after,
      (generate ["--files", "a.rs\nb.rs", "--source", "src/"]).runOn none trimmed = (r, crew, w') ∧
      w'.trace.events = before ++ .request model system (.reply m :: rest) mark :: after ∧
      m.hasRole "assistant" = true ∧ mark ≠ 0 ∧ Outlived model before m := by
  have hscripts : ∀ script ∈ trimmed.scripts, ∀ reply ∈ script, reply.isByAssistant = true := by
    decide +kernel
  have heval := requestAt_trimmed
  obtain ⟨⟨r, crew, w'⟩, hrun⟩ : ∃ run, (generate ["--files", "a.rs\nb.rs", "--source",
    "src/"]).runOn none trimmed = run := ⟨_, rfl⟩
  rw [hrun] at heval
  obtain ⟨model, system, messages, mark, hno, hes⟩ := exists_of_requestAt heval
  obtain ⟨first, rest, rfl, hfirst⟩ := generate_begins_with_user hscripts hrun hes
  obtain ⟨m, rfl, hrole, hmark, hcut⟩ := hfirst.resolve_left (by simpa [beginsByUser] using hno)
  exact ⟨r, crew, w', _, model, system, m, rest, mark, _, hrun, hes, hrole, hmark, hcut⟩

/-- With replies by assistants only, a request of the run has a first message without the role of
the user. -/
theorem generate_begins_with_reply :
    (∀ script ∈ trimmed.scripts, ∀ reply ∈ script, reply.isByAssistant = true) ∧
      ∃ model system first rest mark,
        Event.request model system (first :: rest) mark ∈ ((generate ["--files", "a.rs\nb.rs",
          "--source", "src/"]).runOn none trimmed).2.2.trace.events ∧ first.isByUser = false := by
  refine ⟨by decide +kernel, ?_⟩
  obtain ⟨model, system, messages, mark, hno, hes⟩ := exists_of_requestAt requestAt_trimmed
  cases messages with
  | nil => cases hno
  | cons first rest =>
    refine ⟨model, system, first, rest, mark, ?_, by simpa [beginsByUser] using hno⟩
    rw [hes]
    exact List.mem_append_right _ List.mem_cons_self

end Program

end Covenant
