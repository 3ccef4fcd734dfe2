import Covenant.Proofs.World.History

/-!
# How operations are put together

Most operations are put together from few basic ones: they do one after the other, look at the
state, or handle a stop. What the basic operations keep is then kept by all of them, so what an
operation is put together from is said once (`Built`), and an invariant is looked at for the basic
ones only.

An operation of this kind may look at the state only where similar states do not differ. So it can
also be followed in two runs side by side.
-/

namespace Covenant

/-- An operation that is put together from those in `B`. Where it looks at the state, it goes on in
the same way from similar states. -/
inductive Built {σ : Type} (Sim : σ → σ → Prop) (B : (α : Type) → EStateM Stop σ α → Prop) :
    (α : Type) → EStateM Stop σ α → Prop
  | base {α : Type} {x : EStateM Stop σ α} (h : B α x) : Built Sim B α x
  | pure {α : Type} (a : α) : Built Sim B α (pure a)
  | throw {α : Type} (e : Stop) : Built Sim B α (throw e)
  | bind {α β : Type} {x : EStateM Stop σ α} {f : α → EStateM Stop σ β} (hx : Built Sim B α x)
      (hf : ∀ a, Built Sim B β (f a)) : Built Sim B β (x >>= f)
  | look {α : Type} {f : σ → EStateM Stop σ α} (hf : ∀ s, Built Sim B α (f s))
      (h : ∀ s s', Sim s s' → f s' = f s) : Built Sim B α (get >>= f)
  | tryCatch {α : Type} {x : EStateM Stop σ α} {handle : Stop → EStateM Stop σ α}
      (hx : Built Sim B α x) (hh : ∀ e, Built Sim B α (handle e)) :
      Built Sim B α (tryCatch x handle)

namespace Built

variable {σ α : Type} {Sim : σ → σ → Prop} {B : (α : Type) → EStateM Stop σ α → Prop}
  {x y : EStateM Stop σ α}

theorem ite {p : Prop} [Decidable p] (hx : p → Built Sim B α x) (hy : ¬ p → Built Sim B α y) :
    Built Sim B α (if p then x else y) := by
  by_cases h : p
  · rw [if_pos h]
    exact hx h
  · rw [if_neg h]
    exact hy h

/-- What the basic operations keep, stopped or not, is kept. -/
theorem brings {p : σ → Prop} (h : Built Sim B α x)
    (hB : ∀ α x, B α x → Brings p (fun _ => p) (fun _ => p) x) :
    Brings p (fun _ => p) (fun _ => p) x := by
  induction h with
  | base h => exact hB _ _ h
  | pure a => exact brings_done a
  | throw e => exact fun _ hs => hs
  | bind _ _ hx hf => exact hx.bind hf
  | look _ _ hf => exact .get_bind fun s _ => hf s
  | tryCatch _ _ hx hh =>
    exact fun s hs => ends_tryCatch.2 ((hx s hs).mono (fun _ _ => id) fun e t ht => hh e t ht)

end Built

/-! ## Plain effects -/

/-- The worlds differ at most in the scripts that are left and in the trace. -/
def World.Sim (w w' : World) : Prop :=
  ∃ scripts trace, w' = { w with scripts := scripts, trace := trace }

/-- An event that is no request and takes on no file. -/
inductive Aside : Event → Prop
  | wait (seconds : Nat) : Aside (.wait seconds)
  | close : Aside .close
  | connect (region : Option String) : Aside (.connect region)
  | fetch (url : String) : Aside (.fetch url)
  | run (command : List String) (directory : Option String) : Aside (.run command directory)
  | write (path : String) (c : Content) : Aside (.write path c)
  | grading (output : String) : Aside (.grading output)
  | graded (output : String) (grade : Int) : Aside (.graded output grade)

namespace Effect

/-- What a plain effect is put together from. -/
inductive Basic : (α : Type) → Effect α → Prop
  | emit (s : String) : Basic Unit (modifyTrace fun t => { t with out := t.out ++ s })
  | log (line : String) : Basic Unit (log line)
  | record {e : Event} (h : Aside e) (hn : ∀ path, e.written? path = none) : Basic Unit (record e)
  | makeDirectory (path : String) : Basic Unit (makeDirectory path)
  | writeText (path text : String) : Basic Unit (writeText path text)
  | appendText (path text : String) : Basic Unit (appendText path text)
  | copyOnto (source target : String) : Basic Unit (copyOnto source target)
  | copyRights (source target : String) :
      Basic Unit (modifyDisk fun d => d.copyRights source target)
  | checkout (directory file : String) : Basic Unit (checkout directory file)

/-- The effect makes no request, takes on no file, and does not change the settings. -/
abbrev Plain {α : Type} (e : Effect α) : Prop := Built World.Sim Basic α e

variable {α : Type}

theorem Plain.get_bind {f : World → Effect α} (hf : ∀ w, Plain (f w))
    (h : ∀ w scripts trace, f { w with scripts := scripts, trace := trace } = f w) :
    Plain (get >>= f) := by
  refine .look hf ?_
  rintro w _ ⟨scripts, trace, rfl⟩
  exact h w scripts trace

theorem Plain.follows {e : Effect α} (h : Plain e) : e.Follows Aside := by
  have hbasic (w₀ : World) (α : Type) (e : Effect α) (he : Basic α e) :
      Brings (fun w => w₀.Follows Aside w) (fun _ w => w₀.Follows Aside w)
        (fun _ w => w₀.Follows Aside w) e := by
    have hany {e : Effect α} (he : e.Follows Aside) : Brings (fun w => w₀.Follows Aside w)
        (fun _ w => w₀.Follows Aside w) (fun _ w => w₀.Follows Aside w) e :=
      fun w hw => (he w).mono (fun _ _ => hw.trans) fun _ _ => hw.trans
    have hstep {e : Effect α} (he : e.Leads Aside) := hany he.follows
    cases he with
    | emit s => exact hstep (leads_modifyTrace fun _ => rfl)
    | log line => exact hstep (leads_log line)
    | record he hn => exact hstep (leads_record he hn)
    | makeDirectory path => exact hstep (leads_makeDirectory path)
    | writeText path text => exact hstep (leads_writeText (.write _ _))
    | appendText path text => exact hstep (leads_appendText (.write _))
    | copyOnto source target => exact hstep (leads_copyOnto (.write _))
    | copyRights source target => exact hstep (leads_copyRights source target)
    | checkout directory file => exact hany (follows_checkout (.run _ _))
  exact fun w => h.brings (hbasic w) w (World.Leads.refl w).follows

theorem plain_fail (f : Fault) : Plain (fail f : Effect α) := .throw _

theorem plain_exit (n : Nat) : Plain (exit n : Effect α) := .throw _

theorem plain_settings : Plain settings := Plain.get_bind (fun _ => .pure _) fun _ _ _ => rfl

theorem plain_log (line : String) : Plain (log line) := .base (.log line)

theorem plain_record {e : Event} (h : Aside e) (hn : ∀ path, e.written? path = none) :
    Plain (record e) := .base (.record h hn)

theorem plain_print (s : String) : Plain (print s) := by
  refine Plain.get_bind (fun w => ?_) fun _ _ _ => rfl
  cases printed? w s with
  | some s => exact .base (.emit s)
  | none => exact plain_fail _

theorem plain_say (s : String) : Plain (say s) := (plain_print s).bind fun _ => plain_print _

theorem plain_remark (s : String) : Plain (remark s) :=
  plain_settings.bind fun _ => .ite (fun _ => plain_say s) fun _ => .pure _

theorem plain_ofDisk (r : Except DiskFault α) : Plain (ofDisk r) := by
  cases r with
  | ok a => exact .pure a
  | error f => exact plain_fail _

theorem plain_openFile (path : String) : Plain (openFile path) :=
  Plain.get_bind (fun _ => plain_ofDisk _) fun _ _ _ => rfl

theorem plain_decode (c : Content) : Plain (decode c) := by
  unfold decode
  cases c.chars? with
  | some s => exact .pure s
  | none => exact plain_fail _

theorem plain_readText (path : String) : Plain (readText path) :=
  (plain_openFile path).bind fun c => (plain_decode c).bind fun _ => .pure _

theorem plain_makeDirectory (path : String) : Plain (makeDirectory path) :=
  .base (.makeDirectory path)

theorem plain_writeText (path text : String) : Plain (writeText path text) :=
  .base (.writeText path text)

theorem plain_appendText (path text : String) : Plain (appendText path text) :=
  .base (.appendText path text)

theorem plain_copyOnto (source target : String) : Plain (copyOnto source target) :=
  .base (.copyOnto source target)

theorem plain_copy (source target : String) : Plain (copy source target) :=
  Plain.get_bind (fun _ => (plain_copyOnto _ _).bind fun _ => .base (.copyRights _ _))
    fun _ _ _ => rfl

theorem plain_fetch (url : String) : Plain (fetch url) := by
  refine (plain_record (.fetch url) fun _ => rfl).bind fun _ =>
    Plain.get_bind (fun w => ?_) fun _ _ _ => rfl
  cases w.web url with
  | body c => exact .pure c
  | status code reason => exact plain_fail _
  | unreachable reason => exact plain_fail _

theorem plain_format (path : String) : Plain (format path) := by
  refine (plain_record (.run _ _) fun _ => rfl).bind fun _ =>
    Plain.get_bind (fun w => ?_) fun _ _ _ => rfl
  cases w.tools.formatter path w.disk with
  | keeps => exact .pure _
  | missing => exact plain_fail _
  | replaces text =>
    dsimp only
    cases w.disk.write path (.text text) with
    | ok d => exact plain_writeText path text
    | error f => exact .pure _

end Effect

namespace Merge

open Effect

variable (source contracts output : String)

theorem plain_isAnnotatedFile (path : String) : Plain (isAnnotatedFile path) := by
  refine Plain.get_bind (fun w => .ite (fun _ => plain_fail _) fun _ => .ite (fun _ => plain_fail _)
    fun _ => .ite (fun _ => .pure _) fun _ => ?_) fun _ _ _ => rfl
  cases w.disk.load path with
  | ok c => exact .pure _
  | error f => exact .pure _

theorem plain_insertContracts : Plain (insertContracts source contracts output) := by
  refine (plain_openFile _).bind fun sc => (plain_openFile _).bind fun cc =>
    (plain_decode _).bind fun s => (plain_decode _).bind fun c => ?_
  dsimp only
  cases merge (Text.lines s) (Text.lines c) with
  | error e => exact plain_fail _
  | ok m =>
    refine (plain_isAnnotatedFile _).bind fun annotated => ?_
    cases m.output? (isCorePath source) annotated with
    | none => exact .pure _
    | some ls => exact (plain_writeText _ _).bind fun _ => .pure _

theorem plain_appendInvariants : Plain (appendInvariants source contracts output) := by
  refine (plain_readText _).bind fun t => .ite (fun _ => ?_) fun _ => .pure _
  exact (plain_appendText _ _).bind fun _ => (plain_readText _).bind fun _ => plain_writeText _ _

theorem plain_annotate : Plain (annotate source contracts output) := by
  refine (plain_insertContracts source contracts output).bind fun attributes =>
    Plain.get_bind (fun w => ?_) fun _ _ _ => rfl
  exact .ite
    (fun _ => (plain_copy _ _).bind fun _ => plain_appendInvariants source contracts output)
    fun _ => plain_appendInvariants source contracts output

end Merge

end Covenant
