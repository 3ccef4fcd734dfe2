import Covenant.Settings.CommandLine

/-!
# What a command line gives

The arguments of a command line are uses of switches, one after the other. A switch has the value of
its last use (`given`), and a switch without a value is set when it is used at all (`isSet`). A
command line that is accepted sets exactly that (`parse_eq_run`).
-/

namespace Covenant.CommandLine

open Text (DigitTable)

/-! ## Uses of switches -/

/-- One use of a switch, perhaps with a value. -/
inductive Use
  | flag (s : Switch)
  | value (s : Switch) (v : Entry)
  deriving DecidableEq, Repr

/-- The value that the use gives to the switch `s`. -/
def Use.valueFor (s : Switch) : Use → Option Entry
  | .value t v => if t = s then some v else none
  | .flag _ => none

/-- The uses in a list of arguments. A switch that waits for its value takes the next one. -/
def usesIn : List (String × Token) → List Use
  | [] => []
  | (_, token) :: rest =>
    match token.cluster? with
    | .ok (some k) =>
      match k.ending, rest with
      | .wantsNext s, (value, .operand) :: rest =>
        k.flags.map .flag ++ .value s (.text value) :: usesIn rest
      | .value s v, rest => k.flags.map .flag ++ .value s (attachedValue v) :: usesIn rest
      | _, rest => k.flags.map .flag ++ usesIn rest
    | _ => usesIn rest

/-- The uses on a command line. -/
def uses (digits : DigitTable) (arguments : List String) : List Use :=
  match tokenize digits arguments with
  | .ok tokens => usesIn tokens
  | .error _ => []

/-- The value that is given for a switch: that of its last use, unless it is the empty text. -/
def given (digits : DigitTable) (arguments : List String) (s : Switch) : Option Entry :=
  ((uses digits arguments).filterMap (Use.valueFor s)).getLast?.filter (· != .text "")

/-- Whether a switch without a value is used. -/
def isSet (digits : DigitTable) (arguments : List String) (s : Switch) : Bool :=
  (uses digits arguments).elem (.flag s)

/-! ## Arguments -/

namespace Arguments

/-- What is set for a switch that has a value. -/
def entry (a : Arguments) : Switch → Entry
  | .files => a.files
  | .workerModel => a.workerModel
  | .arbiterModel => a.arbiterModel
  | .source => a.source
  | .target => a.target
  | .config => a.config
  | _ => .text ""

/-- Whether a switch without a value is set; the help is never. -/
def flag (a : Arguments) : Switch → Bool
  | .update => a.update
  | .proof => a.proof
  | .kani => a.kani
  | .verbose => a.verbose
  | _ => false

/-- The arguments after one more use. -/
def use (a : Arguments) : Use → Arguments
  | .flag s => a.raise s
  | .value s v => a.assign s v

theorem entry_use {s : Switch} (hs : s.takesValue = true) (a : Arguments) (u : Use) :
    (a.use u).entry s = (u.valueFor s).getD (a.entry s) := by
  cases u with
  | flag t => cases t <;> rfl
  | value t v => cases t <;> cases s <;> first | rfl | cases hs

/-- The last use of a switch decides. -/
theorem entry_foldl_use {s : Switch} (hs : s.takesValue = true) (us : List Use) (a : Arguments) :
    (us.foldl use a).entry s = ((us.filterMap (Use.valueFor s)).getLast?).getD (a.entry s) := by
  induction us generalizing a with
  | nil => rfl
  | cons u us ih =>
    rw [List.foldl_cons, ih, entry_use hs]
    cases hu : u.valueFor s with
    | none => rw [List.filterMap_cons_none hu, Option.getD_none]
    | some v =>
      rw [List.filterMap_cons_some hu, List.getLast?_cons, Option.getD_some, Option.getD_some]

theorem flag_use {s : Switch} (hs : s.takesValue = false) (hh : s ≠ .help) (a : Arguments)
    (u : Use) : (a.use u).flag s = (.flag s == u || a.flag s) := by
  cases u with
  | value t v => cases t <;> rfl
  | flag t => cases t <;> cases s <;> first | rfl | exact absurd rfl hh | cases hs

theorem flag_foldl_use {s : Switch} (hs : s.takesValue = false) (hh : s ≠ .help) (us : List Use)
    (a : Arguments) : (us.foldl use a).flag s = (us.elem (.flag s) || a.flag s) := by
  induction us generalizing a with
  | nil => rfl
  | cons u us ih =>
    rw [List.foldl_cons, ih, flag_use hs hh, List.elem_cons]
    cases Use.flag s == u with
    | true => rw [Bool.true_or, Bool.or_true]
    | false => rfl

end Arguments

/-! ## Accepted command lines -/

theorem foldl_flag (flags : List Switch) (a : Arguments) :
    (flags.map Use.flag).foldl Arguments.use a = flags.foldl Arguments.raise a :=
  List.foldl_map

/-- Arguments that are all taken are the uses in them, one after the other. -/
theorem take_eq_run {tokens : List (String × Token)} {a b : Arguments} {extra : List String}
    (h : take tokens a extra = .run b) : b = (usesIn tokens).foldl Arguments.use a := by
  fun_induction take tokens a extra with
  | case1 a extra he => exact (Request.run.inj h).symm
  | case2 a extra he => cases h
  | case3 text token rest a extra e hk => cases h
  | case4 text token rest a extra hk ih =>
    rw [usesIn, hk]
    exact ih h
  | case5 text token a extra k hk s value rest hend hhelp => cases h
  | case6 text token a extra k hk s value rest hend hhelp ih =>
    simp only [usesIn, hk, hend, List.foldl_append, foldl_flag]
    exact ih h
  | case7 text token rest a extra k hk s hend hrest => cases h
  | case8 text token a extra k hk rest hhelp hnot hnone => cases h
  | case9 text token a extra k hk rest hhelp flagged s v hnot hnone hend ih =>
    simp only [usesIn, hk, hend, List.foldl_append, foldl_flag]
    exact ih h
  | case10 text token a extra k hk rest hhelp flagged hnot hnone hval ih =>
    have hend : k.ending = .complete := by
      cases he : k.ending with
      | complete => rfl
      | value s v => exact absurd he (hval s v)
      | wantsNext s => exact absurd he (hnone s)
    simp only [usesIn, hk, hend, List.foldl_append, foldl_flag]
    exact ih h

/-- A command line that is accepted sets what its uses give. -/
theorem parse_eq_run {digits : DigitTable} {arguments : List String} {a : Arguments}
    (h : parse digits arguments = .run a) :
    a = (uses digits arguments).foldl Arguments.use {} := by
  unfold parse at h
  unfold uses
  cases ht : tokenize digits arguments with
  | error e =>
    rw [ht] at h
    cases h
  | ok tokens =>
    rw [ht] at h
    exact take_eq_run h

theorem entry_parse {digits : DigitTable} {arguments : List String} {a : Arguments}
    (h : parse digits arguments = .run a) {s : Switch} (hs : s.takesValue = true) :
    a.entry s = (given digits arguments s).getD (.text "") := by
  have hnone : Arguments.entry {} s = .text "" := by cases s <;> rfl
  rw [parse_eq_run h, Arguments.entry_foldl_use hs, hnone, given]
  cases ((uses digits arguments).filterMap (Use.valueFor s)).getLast? with
  | none => rfl
  | some v =>
    rw [Option.getD_some, Option.filter_some]
    by_cases hv : v = .text ""
    · rw [hv]
      rfl
    · rw [if_pos (bne_iff_ne.2 hv), Option.getD_some]

theorem flag_parse {digits : DigitTable} {arguments : List String} {a : Arguments}
    (h : parse digits arguments = .run a) {s : Switch} (hs : s.takesValue = false)
    (hh : s ≠ .help) : a.flag s = isSet digits arguments s := by
  have hnone : Arguments.flag {} s = false := by cases s <;> rfl
  rw [parse_eq_run h, Arguments.flag_foldl_use hs hh, hnone, Bool.or_false, isSet]

/-! ## Values -/

/-- A value that is given is a text or an empty list. -/
theorem value_of_mem_usesIn {tokens : List (String × Token)} {s : Switch} {v : Entry}
    (h : .value s v ∈ usesIn tokens) : v ≠ .bare := by
  have hflags (fs : List Switch) : Use.value s v ∉ fs.map Use.flag := by simp
  have hattached (t : List Char) : attachedValue t ≠ .bare := by
    intro h
    rw [attachedValue] at h
    by_cases ht : t = ['-', '-']
    · rw [if_pos ht] at h
      cases h
    · rw [if_neg ht] at h
      cases h
  fun_induction usesIn tokens with
  | case1 => cases h
  | case2 text token k hk s' value rest hend ih =>
    rcases List.mem_append.1 h with h | h
    · exact absurd h (hflags _)
    · rcases List.mem_cons.1 h with h | h
      · cases h
        intro hb
        cases hb
      · exact ih h
  | case3 text token k hk s' t rest hend ih =>
    rcases List.mem_append.1 h with h | h
    · exact absurd h (hflags _)
    · rcases List.mem_cons.1 h with h | h
      · cases h
        exact hattached t
      · exact ih h
  | case4 text token k hk rest hnot hval ih =>
    rcases List.mem_append.1 h with h | h
    · exact absurd h (hflags _)
    · exact ih h
  | case5 text token rest hk ih => exact ih h

theorem given_ne_bare (digits : DigitTable) (arguments : List String) (s : Switch) :
    given digits arguments s ≠ some .bare := by
  intro h
  obtain ⟨hlast, -⟩ := Option.filter_eq_some_iff.1 h
  obtain ⟨u, hu, hv⟩ := List.mem_filterMap.1 (List.mem_of_getLast? hlast)
  cases u with
  | flag t => cases hv
  | value t v =>
    obtain rfl : v = .bare := by
      rw [Use.valueFor] at hv
      by_cases ht : t = s
      · rw [if_pos ht] at hv
        exact Option.some.inj hv
      · rw [if_neg ht] at hv
        cases hv
    unfold uses at hu
    cases ht : tokenize digits arguments with
    | error e =>
      rw [ht] at hu
      cases hu
    | ok tokens =>
      rw [ht] at hu
      exact value_of_mem_usesIn hu rfl

theorem given_ne_empty_text (digits : DigitTable) (arguments : List String) (s : Switch) :
    given digits arguments s ≠ some (.text "") := by
  intro h
  obtain ⟨-, hne⟩ := Option.filter_eq_some_iff.1 h
  exact absurd rfl (bne_iff_ne.1 hne)

end Covenant.CommandLine
