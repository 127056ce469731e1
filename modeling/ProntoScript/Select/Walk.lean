/-
# `ps_HandleSelect` on the linked list

`js/src/ext/psselect.c`, lines 191-297.  A pass reads `ps_Events` and walks along
`next` twice: to set up the `select`, and to update the timeouts and to copy the
events.  `SelectHeap.psHandleSelect` does that in the memory of cells, up to the calls
of the callbacks.  It meets whatever `ps_RemoveSelect` has left linked, released or
not; where the list represents a map, it is the pass over the map
(`SelectHeap.Represents.psHandleSelect`).

A walk along a cycle does not end, so the walks have a fuel argument here as well.
-/

import ProntoScript.Select.Dispatch

namespace ProntoScript

open LinkedList

namespace SelectHeap

/-- The events that the walk from `ps_Events` meets. Source: `ps_HandleSelect`,
lines 252-299 of `js/src/ext/psselect.c`. -/
def events (fuel : ℕ) (h : SelectHeap) : Option (List (Σ _ : ℤ, PSSelectEvent)) :=
  (walk h.mem fuel h.psEvents).map fun l => l.map fun a => (h.mem a).data

/-- `ps_HandleSelect` up to the calls of the callbacks; `some none` is `JS_FALSE`.  The
second walk updates the timeout of an event before it copies it.  What `tv` held before
matters to no set. Source: lines 192-317 of `js/src/ext/psselect.c`. -/
def psHandleSelect (fuel : ℕ) (h : SelectHeap) (a : SelectAnswer) :
    Option (Option (SelectHeap × List Dispatch)) :=
  if h.psEvents = none then some none
  else
    (h.events fuel).bind fun asked =>
      let r := a.result (requestOf ⟨0, 0⟩ asked)
      (updateLoop r.duration fuel h.psEvents h).bind fun h =>
        (h.events fuel).map fun met =>
          some (h, (pickCalls r.result (copiesOf met r)).map PassCall.dispatch)

variable {h h' : SelectHeap} {m : Registry} {a : SelectAnswer} {n k : ℕ} {d : Timespec}
  {p : Option ℕ}

/-! ### More fuel does not change a pass -/

/-- A walk that ends does so with more fuel. -/
theorem updateLoop_mono (hr : updateLoop d n p h = some h') (hk : n ≤ k) :
    updateLoop d k p h = some h' := by
  induction n generalizing p h k with
  | zero =>
      cases p with
      | none => cases k <;> exact hr
      | some ev => cases hr
  | succ n ih =>
      cases p with
      | none => cases k <;> exact hr
      | some ev =>
          obtain ⟨k, rfl⟩ : ∃ j, k = j + 1 := ⟨k - 1, by omega⟩
          rw [updateLoop] at hr ⊢
          exact ih hr (by omega)

/-- The same for the walk that lists the events. -/
theorem events_mono {l : List (Σ _ : ℤ, PSSelectEvent)} (hl : h.events n = some l) (hk : n ≤ k) :
    h.events k = some l := by
  obtain ⟨c, hc, rfl⟩ := Option.map_eq_some_iff.1 hl
  rw [events, walk_mono hc hk]
  rfl

/-- The same for a pass. -/
theorem psHandleSelect_mono {q : Option (SelectHeap × List Dispatch)}
    (hq : h.psHandleSelect n a = some q) (hk : n ≤ k) : h.psHandleSelect k a = some q := by
  unfold psHandleSelect at hq ⊢
  split_ifs at hq ⊢
  · exact hq
  · obtain ⟨asked, hasked, hq⟩ := Option.bind_eq_some_iff.1 hq
    obtain ⟨h₂, hloop, hq⟩ := Option.bind_eq_some_iff.1 hq
    obtain ⟨met, hmet, rfl⟩ := Option.map_eq_some_iff.1 hq
    rw [events_mono hasked hk, Option.bind_some]
    dsimp only
    rw [updateLoop_mono hloop hk, Option.bind_some, events_mono hmet hk]
    rfl

/-- So there is one thing a pass does. -/
theorem psHandleSelect_unique {q q' : Option (SelectHeap × List Dispatch)}
    (hq : h.psHandleSelect n a = some q) (hq' : h.psHandleSelect k a = some q') : q = q' := by
  have h₁ := psHandleSelect_mono hq (le_max_left n k)
  have h₂ := psHandleSelect_mono hq' (le_max_right n k)
  exact Option.some.inj (h₁.symm.trans h₂)

/-- Where `ps_Events` is `NULL` there is nothing to do, and only there. -/
theorem psHandleSelect_eq_none (hq : h.psHandleSelect n a = some none) : h.psEvents = none := by
  unfold psHandleSelect at hq
  split_ifs at hq with hnone
  · exact hnone
  · obtain ⟨asked, -, hq⟩ := Option.bind_eq_some_iff.1 hq
    obtain ⟨h₂, -, hq⟩ := Option.bind_eq_some_iff.1 hq
    obtain ⟨met, -, hq⟩ := Option.map_eq_some_iff.1 hq
    cases hq

/-- A pass begins with an event that is linked. -/
theorem psHandleSelect_ne_none {q : SelectHeap × List Dispatch}
    (hq : h.psHandleSelect n a = some (some q)) : h.psEvents ≠ none := by
  intro hnone
  rw [psHandleSelect, if_pos hnone] at hq
  cases hq

/-! ### On a list that represents a map -/

/-- The walk meets the entries of the map. -/
theorem Represents.events (hm : h.Represents m) : ∃ n, h.events n = some m.entries := by
  obtain ⟨l, hl, hmap, -⟩ := hm
  refine ⟨l.length, ?_⟩
  rw [SelectHeap.events, hl.walk_eq, Option.map_some, List.map_map, ← hmap]
  exact congrArg some (List.map_congr_left fun c hc => hl.data_eq (a := c.1) (x := c.2) hc)

/-- `ps_Events` is `NULL` where nothing is registered. -/
theorem Represents.psEvents_eq_none (hm : h.Represents m) : h.psEvents = none ↔ m.entries = [] := by
  obtain ⟨l, hl, hmap, -⟩ := hm
  rw [← hmap, List.map_eq_nil_iff]
  cases l with
  | nil => exact iff_of_true hl rfl
  | cons c l => exact iff_of_false (by rw [hl.1]; rintro ⟨⟩) (by rintro ⟨⟩)

/-- **On a list that represents a map a pass returns, and is the pass over the map.** -/
theorem Represents.psHandleSelect (hm : h.Represents m) (a : SelectAnswer) :
    ∃ n q, h.psHandleSelect n a = some q ∧
      Option.Rel (fun x y => x.1.Represents y.1 ∧ x.2 = y.2) q
        (ProntoScript.psHandleSelect m a) := by
  by_cases hnone : m.entries = []
  · refine ⟨0, none, ?_, ?_⟩
    · rw [SelectHeap.psHandleSelect, if_pos (hm.psEvents_eq_none.2 hnone)]
    · rw [ProntoScript.psHandleSelect_eq_none.2 hnone]
      exact .none
  · set r := a.result (requestOf ⟨0, 0⟩ m.entries) with hr
    obtain ⟨n₁, hasked⟩ := hm.events
    obtain ⟨n₂, h', hloop, hm'⟩ := hm.updateLoop (d := r.duration)
    obtain ⟨n₃, hmet⟩ := hm'.events
    have hpass : ProntoScript.psHandleSelect m a = some (m.updateTimeouts r.duration,
        (pickCalls r.result (copyLists (m.updateTimeouts r.duration) r)).map
          PassCall.dispatch) := by
      have hquiet : ((List.range (pickCalls r.result
          (copyLists (m.updateTimeouts r.duration) r)).length).flatMap
            fun _ => ([] : List RegistryChange)) = [] := by simp
      rw [@psHandleSelect_eq_pass m a ⟨0, 0⟩, psHandleSelectPass, if_neg hnone]
      dsimp only [selectRequest, Option.map_some]
      rw [← hr, callLoop_calls, callLoop_registry, hquiet]
      rfl
    refine ⟨max n₁ (max n₂ n₃), some (h', (pickCalls r.result
      (copyLists (m.updateTimeouts r.duration) r)).map PassCall.dispatch), ?_, ?_⟩
    · rw [SelectHeap.psHandleSelect, if_neg (hm.psEvents_eq_none.not.2 hnone),
        events_mono hasked (by omega), Option.bind_some]
      dsimp only
      rw [updateLoop_mono hloop (by omega), Option.bind_some, events_mono hmet (by omega)]
      rfl
    · rw [hpass]
      exact .some ⟨hm', rfl⟩

/-- So what a pass leaves represents what the pass over the map leaves. -/
theorem Represents.of_pass (hm : h.Represents m) {pending : List Dispatch}
    (hpass : h.psHandleSelect n a = some (some (h', pending))) :
    ∃ m', h'.Represents m' ∧ ProntoScript.psHandleSelect m a = some (m', pending) := by
  obtain ⟨k, q, hq, hrel⟩ := hm.psHandleSelect a
  obtain rfl := psHandleSelect_unique hpass hq
  cases hmap : ProntoScript.psHandleSelect m a with
  | none =>
      rw [hmap] at hrel
      cases hrel
  | some q =>
      obtain ⟨m', pending'⟩ := q
      rw [hmap] at hrel
      obtain ⟨hm', rfl⟩ : h'.Represents m' ∧ pending = pending' := by cases hrel; assumption
      exact ⟨m', hm', rfl⟩

end SelectHeap
end ProntoScript
