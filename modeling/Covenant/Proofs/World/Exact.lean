import Covenant.Proofs.World.History

/-!
# Exact runs

`World.Does` says which events lead from one world to another that is otherwise the same, but for
what was printed. A text that can be printed is printed without a fault (`ends_say_of_printed`), and
one that sets no title never stops a run (`does_remark`).
-/

namespace Covenant

open Text

/-- Exactly these events lead from the first world to the second, on the same disk. -/
structure World.Does (es : List Event) (w v : World) : Prop where
  settings : v.settings = w.settings
  host : v.toHost = w.toHost
  log : v.log = w.log
  events : v.trace.events = w.trace.events ++ es
  disk : v.disk = w.disk

namespace World.Does

variable {es es' : List Event} {w u v : World}

theorem trans (h : w.Does es u) (h' : u.Does es' v) : w.Does (es ++ es') v where
  settings := h'.settings.trans h.settings
  host := h'.host.trans h.host
  log := h'.log.trans h.log
  events := by rw [h'.events, h.events, List.append_assoc]
  disk := h'.disk.trans h.disk

theorem trace {t : Trace} (ht : t.events = w.trace.events) : w.Does [] { w with trace := t } :=
  ⟨rfl, rfl, rfl, by rw [List.append_nil, ht], rfl⟩

theorem noting (w : World) (e : Event) : w.Does [e] (w.noting e) := ⟨rfl, rfl, rfl, rfl, rfl⟩

end World.Does

namespace Effect

/-- A text that sets no title is printed in every world. -/
theorem isSome_printed? {s : String} (h : setsTitle s.toList = false) (w : World) :
    (printed? w s).isSome = true := by
  unfold printed? plain?
  rw [h]
  cases w.plain with
  | true => rfl
  | false => rfl

theorem ends_print_of_printed {s : String} {w : World} (h : (printed? w s).isSome = true) :
    Ends (print s) w (fun _ => w.Does []) fun _ _ => False := by
  obtain ⟨t, ht⟩ := Option.isSome_iff_exists.1 h
  rw [Ends, print, get_bind_apply, ht]
  exact .trace rfl

theorem ends_say_of_printed {s : String} {w : World} (h : (printed? w s).isSome = true) :
    Ends (say s) w (fun _ => w.Does []) fun _ _ => False :=
  (ends_print_of_printed h).bind fun _ v hv =>
    (ends_print_of_printed (isSome_printed? (by decide +kernel) v)).mono
      (fun _ _ hu => hv.trans hu) fun _ _ => id

theorem ends_remark_of_printed {s : String} {w : World}
    (h : w.settings.verbose = true → (printed? w s).isSome = true) :
    Ends (remark s) w (fun _ => w.Does []) fun _ _ => False := by
  show Ends (if w.settings.verbose then say s else pure ()) w _ _
  by_cases hv : w.settings.verbose = true
  · rw [if_pos hv]
    exact ends_say_of_printed (h hv)
  · rw [if_neg hv]
    exact World.Does.trace rfl

theorem does_say {s : String} (h : setsTitle s.toList = false) (w : World) :
    Ends (say s) w (fun _ => w.Does []) fun _ _ => False :=
  ends_say_of_printed (isSome_printed? h w)

theorem does_remark {s : String} (h : setsTitle s.toList = false) (w : World) :
    Ends (remark s) w (fun _ => w.Does []) fun _ _ => False :=
  ends_remark_of_printed fun _ => isSome_printed? h w

end Effect

end Covenant
