import Covenant.Ini.Reader

/-!
# References in values

In a value `%(name)s` stands for the value of the option `name`, with its own references replaced,
and `%%` for a percent sign.
-/

namespace Covenant.Ini

open Text

/-- The name of the reference whose text follows `%(`, and what follows the reference. -/
def reference? (s : Line) : Option (Line × Line) :=
  let name := s.takeWhile (· != ')')
  match s.dropWhile (· != ')') with
  | ')' :: 's' :: r => if name.isEmpty then none else some (name, r)
  | _ => none

theorem length_reference?_lt {s name rest : Line} (h : reference? s = some (name, rest)) :
    rest.length < s.length := by
  unfold reference? at h
  have hd : (s.dropWhile (· != ')')).length ≤ s.length := (List.dropWhile_sublist _).length_le
  split at h
  · next r he =>
    rw [he] at hd
    simp only [List.length_cons] at hd
    dsimp only at h
    split at h
    · simp at h
    · simp only [Option.some.injEq, Prod.mk.injEq] at h
      rw [← h.2]
      omega
  · simp at h

/-- The value with its references replaced by what `value` gives for their names. -/
def expandWith (value : Line → Except Fault Line) (s : Line) : Except Fault Line :=
  match s with
  | [] => .ok []
  | '%' :: '%' :: r => (expandWith value r).map ('%' :: ·)
  | '%' :: '(' :: r =>
    match _h : reference? r with
    | none => .error (.badReference s)
    | some (name, rest) =>
      match value (lower name) with
      | .error e => .error e
      | .ok v => (expandWith value rest).map (v ++ ·)
  | c :: r => if c = '%' then .error (.strayPercent s) else (expandWith value r).map (c :: ·)
termination_by s.length
decreasing_by
  · simp only [List.length_cons]; omega
  · have := length_reference?_lt (by assumption)
    simp only [List.length_cons]
    omega
  · simp

/-- The value with its references replaced, at most `depth` deep. It is, or comes from, the value
`raw` of the option. -/
def Document.expand (d : Document) (name option raw : Line) : Nat → Line → Except Fault Line
  | 0, _ => .error (.tooDeep option name raw)
  | depth + 1, s =>
    expandWith
      (fun key =>
        match d.raw? name key with
        | none => .error (.unknownReference option name raw key)
        | some none => .error .emptyReference
        | some (some v) => if v.elem '%' then d.expand name option raw depth v else .ok v)
      s

/-- The value of an option: none if it is not there, `some none` if it has no value. -/
def Document.get? (d : Document) (name option : Line) : Except Fault (Option (Option Line)) :=
  match d.raw? name option with
  | none => .ok none
  | some none => .ok (some none)
  | some (some v) => (d.expand name option v maxDepth v).map fun v => some (some v)

end Covenant.Ini
