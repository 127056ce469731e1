/-
# Monitors of traces

A monitor reads a trace of events and keeps a state; `none` says that the last
event was out of order.  Traces are lists with the latest event first, as logs
are kept, so a monitor runs from the far end (`track`).  Once out of order, a
trace stays so; a trace in order can be cut anywhere (`track_append`); and what
each event keeps holds of the state with the whole trace (`track_invariant`).
-/

import Mathlib.Logic.Basic

namespace Monitor

variable {S E : Type*} {next : S → E → Option S} {s t : S} {e : E} {es later earlier : List E}

/-- The state after a trace, from a given state on. -/
def track (next : S → E → Option S) (s : S) : List E → Option S
  | [] => some s
  | e :: earlier => (track next s earlier).bind fun t => next t e

@[simp] theorem track_nil : track next s [] = some s := rfl

@[simp] theorem track_cons :
    track next s (e :: es) = (track next s es).bind fun t => next t e := rfl

/-- **A trace can be cut anywhere.** -/
theorem track_append : track next s (later ++ earlier) =
    (track next s earlier).bind fun t => track next t later := by
  induction later with
  | nil => simp
  | cons e later ih => rw [List.cons_append, track_cons, ih, Option.bind_assoc]; rfl

/-- A trace in order was in order before its latest events. -/
theorem track_of_append (h : track next s (later ++ earlier) = some t) :
    ∃ u, track next s earlier = some u ∧ track next u later = some t := by
  rw [track_append] at h
  exact Option.bind_eq_some_iff.1 h

/-- **What every event in order keeps** holds of the state and the trace. -/
theorem track_invariant {I : S → List E → Prop} (hnil : I s [])
    (hcons : ∀ t es e t', I t es → next t e = some t' → I t' (e :: es))
    (h : track next s es = some t) : I t es := by
  induction es generalizing t with
  | nil =>
      obtain rfl := Option.some.inj h
      exact hnil
  | cons e es ih =>
      obtain ⟨u, hu, hnext⟩ := Option.bind_eq_some_iff.1 h
      exact hcons u es e t (ih hu) hnext

end Monitor
