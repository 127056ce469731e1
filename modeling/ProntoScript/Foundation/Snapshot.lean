/-
# Working off copies of a map that goes on changing

The entries of a map are copied, and the copies are worked off one after the other
while entries are removed and replaced; in between, further batches may be copied and
worked off.  Each copy carries how often the entry of its key had been removed or
replaced by then, so it is `Current` as long as that number is the same.  A copy that
is not current never becomes current again (`Stale.touch`), and a pending one stays
pending until it is worked off.
-/

import Mathlib.Data.Nat.Notation
import Mathlib.Logic.Function.Basic

namespace Snapshot

/-- How often the entry of each key was removed or replaced, and the batches of copies
that are still to be worked off, the latest first. -/
structure State (K D : Type*) where
  changes : K → ℕ
  batches : List (List (D × ℕ))

namespace State

variable {K D : Type*}

/-- The entry of a key is removed or replaced. -/
def touch [DecidableEq K] (s : State K D) (k : K) : State K D :=
  { s with changes := Function.update s.changes k (s.changes k + 1) }

/-- Entries are copied. -/
def take (key : D → K) (s : State K D) (l : List D) : State K D :=
  { s with batches := (l.map fun d => (d, s.changes (key d))) :: s.batches }

/-- The next copy of the latest batch is worked off. -/
def next (s : State K D) : Option ((D × ℕ) × State K D) :=
  match s.batches with
  | (c :: cs) :: rest => some (c, { s with batches := cs :: rest })
  | _ => none

/-- The latest batch is done. -/
def finish (s : State K D) : Option (State K D) :=
  match s.batches with
  | [] :: rest => some { s with batches := rest }
  | _ => none

/-- The copy is still to be worked off. -/
def Pending (s : State K D) (c : D × ℕ) : Prop := ∃ l ∈ s.batches, c ∈ l

/-- The entry was not removed or replaced since it was copied. -/
def Current (key : D → K) (s : State K D) (c : D × ℕ) : Prop := c.2 = s.changes (key c.1)

/-- The entry was removed or replaced since. -/
def Stale (key : D → K) (s : State K D) (c : D × ℕ) : Prop := c.2 < s.changes (key c.1)

variable {key : D → K} {s s' : State K D} {c x : D × ℕ} {k : K} {l : List D}

/-- A copy is not both stale and current. -/
theorem not_current_of_stale (h : s.Stale key c) : ¬s.Current key c := by
  unfold Stale Current at *
  omega

/-! ### What the operations do to the copies -/

@[simp] theorem touch_changes_self [DecidableEq K] : (s.touch k).changes k = s.changes k + 1 :=
  Function.update_self ..

/-- A change of one key is not one of another. -/
theorem touch_changes_ne [DecidableEq K] {j : K} (h : j ≠ k) :
    (s.touch k).changes j = s.changes j := Function.update_of_ne h ..

/-- A change makes the current copies of its key stale. -/
theorem stale_touch [DecidableEq K] (h : s.Current key c) :
    (s.touch (key c.1)).Stale key c := by
  unfold Stale Current at *
  rw [touch_changes_self]
  omega

/-- **What is stale stays stale.** -/
theorem Stale.touch [DecidableEq K] (h : s.Stale key c) (k : K) : (s.touch k).Stale key c := by
  unfold Stale at *
  by_cases hk : key c.1 = k
  · subst hk
    rw [touch_changes_self]
    omega
  · rw [touch_changes_ne hk]
    exact h

/-- New copies are current. -/
theorem pending_take :
    (s.take key l).Pending c ↔ (∃ d ∈ l, (d, s.changes (key d)) = c) ∨ s.Pending c := by
  unfold Pending take
  simp only [List.mem_cons, exists_eq_or_imp, List.mem_map]

/-- Working off a copy takes it out and leaves the others. -/
theorem next_spec (h : s.next = some (x, s')) :
    s'.changes = s.changes ∧ (s.Pending c ↔ c = x ∨ s'.Pending c) := by
  unfold next at h
  split at h
  · rename_i y cs rest hbatches
    cases h
    refine ⟨rfl, ?_⟩
    unfold Pending
    rw [hbatches]
    simp only [List.mem_cons, exists_eq_or_imp, or_assoc]
  · cases h

/-- A batch that is done has no copies left. -/
theorem finish_spec (h : s.finish = some s') :
    s'.changes = s.changes ∧ (s.Pending c ↔ s'.Pending c) := by
  unfold finish at h
  split at h
  · rename_i rest hbatches
    cases h
    refine ⟨rfl, ?_⟩
    unfold Pending
    rw [hbatches]
    simp only [List.mem_cons, exists_eq_or_imp, List.not_mem_nil, false_or]
  · cases h

/-- Where every batch is done nothing is pending. -/
theorem not_pending_of_done (h : s.batches = []) : ¬s.Pending c := by
  rintro ⟨l, hl, -⟩
  rw [h] at hl
  cases hl

end State
end Snapshot
