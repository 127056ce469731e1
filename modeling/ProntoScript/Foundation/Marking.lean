/-
# Marking a graph

A tracing collector marks what it finds and then follows the edges of what it has marked.
However it goes about that, by recursion, with a work list or by reversing the edges it
goes down, at any time in between there are the things it has marked and the edges that it
has not followed yet.  `Visits` is what holds of the two: the edges of the marked things
lead to marked things, but for those that are pending.  Parts of a traversal are put
together by `Visits.then`, and what is left at its end, when nothing is pending and nothing
was marked before, is the marking of what can be reached (`Visits.reach_iff`).

That a traversal ends is by the number of the things that are not marked yet
(`unmarkedCount_lt`).
-/

import ProntoScript.Foundation.Tracing
import Mathlib.Data.List.Basic

namespace Marking

variable {V : Type*}

/-- From the marks `M` to the marks `M'`: what `src` has is marked, together with what it
leads to, except that the edges of `pending` may not have been followed. -/
structure Visits (edge : V → V → Prop) (src : V → Prop) (pending : V → V → Prop)
    (M M' : V → Prop) : Prop where
  mono : ∀ x, M x → M' x
  found : ∀ x, src x → M' x
  reach : ∀ x, M' x → M x ∨ Reach src edge x
  closed : ∀ x y, M' x → ¬M x → edge x y → M' y ∨ pending x y

/-- No edge. -/
def Nothing : V → V → Prop := fun _ _ => False

variable {edge : V → V → Prop} {src src' : V → Prop} {pending pending' : V → V → Prop}
  {M M' M'' : V → Prop} {x : V}

/-- What is reached from the sources is reached from others that reach them. -/
theorem reach_mono (hsrc : ∀ x, src x → Reach src' edge x) (h : Reach src edge x) :
    Reach src' edge x :=
  h.closed hsrc fun _ _ hx he => .step hx he

/-- Where the sources are marked nothing need be visited. -/
theorem Visits.nil (M : V → Prop) (hsrc : ∀ x, src x → M x) : Visits edge src pending M M :=
  ⟨fun _ h => h, hsrc, fun _ h => .inl h, fun _ _ h hn => absurd h hn⟩

/-- **A traversal goes on** with things that it can reach. -/
theorem Visits.then (h₁ : Visits edge src pending M M')
    (h₂ : Visits edge src' Nothing M' M'') (hsrc : ∀ x, src' x → Reach src edge x) :
    Visits edge src pending M M'' where
  mono x hx := h₂.mono x (h₁.mono x hx)
  found x hx := h₂.mono x (h₁.found x hx)
  reach x hx := by
    rcases h₂.reach x hx with hx | hx
    · exact h₁.reach x hx
    · exact .inr (reach_mono hsrc hx)
  closed x y hx hn he := by
    by_cases hx' : M' x
    · exact (h₁.closed x y hx' hn he).imp_left (h₂.mono y)
    · exact .inl ((h₂.closed x y hx hx' he).resolve_right id)

/-- One traversal after another. -/
theorem Visits.append (h₁ : Visits edge src Nothing M M')
    (h₂ : Visits edge src' Nothing M' M'') :
    Visits edge (fun x => src x ∨ src' x) Nothing M M'' where
  mono x hx := h₂.mono x (h₁.mono x hx)
  found x hx := hx.elim (fun hx => h₂.mono x (h₁.found x hx)) (h₂.found x)
  reach x hx := by
    rcases h₂.reach x hx with hx | hx
    · exact (h₁.reach x hx).imp_right (reach_mono fun x hx => .root (.inl hx))
    · exact .inr (reach_mono (fun x hx => .root (.inr hx)) hx)
  closed x y hx hn he := by
    by_cases hx' : M' x
    · exact (h₁.closed x y hx' hn he).imp_left (h₂.mono y)
    · exact h₂.closed x y hx hx' he

/-- What is pending may be followed, or wait. -/
theorem Visits.done (h : Visits edge src pending M M')
    (hp : ∀ x y, pending x y → M' y ∨ pending' x y) : Visits edge src pending' M M' where
  mono := h.mono
  found := h.found
  reach := h.reach
  closed x y hx hn he := (h.closed x y hx hn he).elim .inl (hp x y)

/-- A thing is marked before its edges are followed. -/
theorem Visits.mark (h : Visits edge src pending M M') (pending' : V → V → Prop)
    (hx : Reach src edge x)
    (hp : ∀ a b, pending a b → pending' a b) (he : ∀ y, edge x y → M' y ∨ pending' x y) :
    Visits edge src pending' M fun y => y = x ∨ M' y where
  mono y hy := .inr (h.mono y hy)
  found y hy := .inr (h.found y hy)
  reach y hy := by
    rcases hy with rfl | hy
    · exact .inr hx
    · exact h.reach y hy
  closed a b ha hn hab := by
    rcases ha with rfl | ha
    · exact (he b hab).imp_left .inr
    · exact (h.closed a b ha hn hab).imp .inr (hp a b)

/-- The first thing is marked. -/
theorem Visits.start (edge : V → V → Prop) (M : V → Prop) (x : V) :
    Visits edge (· = x) (fun a b => a = x ∧ edge a b) M fun y => y = x ∨ M y where
  mono _ hy := .inr hy
  found _ hy := .inl hy
  reach y hy := hy.elim (fun e => .inr (.root e)) .inl
  closed a b ha hn hab := by
    rcases ha with rfl | ha
    · exact .inr ⟨rfl, hab⟩
    · exact absurd ha hn

/-- **What is marked is what can be reached.** -/
theorem Visits.reach_iff (h : Visits edge src Nothing (fun _ => False) M') (x : V) :
    M' x ↔ Reach src edge x := by
  constructor
  · intro hx
    exact (h.reach x hx).resolve_left id
  · intro hx
    exact hx.closed h.found fun a b ha hab => (h.closed a b ha id hab).resolve_right id

/-! ### How much is left -/

/-- How many things are not marked. -/
def unmarkedCount (xs : List V) (marks : V → Bool) : ℕ := xs.countP fun x => !marks x

variable {xs : List V} {marks marks' : V → Bool}

/-- With more marks there is less to mark. -/
theorem unmarkedCount_le (h : ∀ x, marks x = true → marks' x = true) :
    unmarkedCount xs marks' ≤ unmarkedCount xs marks := by
  refine List.countP_mono_left fun x _ hx => ?_
  cases hm : marks x with
  | false => rfl
  | true => simp [h x hm] at hx

/-- With one more mark there is strictly less, which is what a traversal ends by. -/
theorem unmarkedCount_lt (h : ∀ x, marks x = true → marks' x = true) (hx : x ∈ xs)
    (hn : marks x = false) (hx' : marks' x = true) :
    unmarkedCount xs marks' < unmarkedCount xs marks := by
  induction xs with
  | nil => simp at hx
  | cons y ys ih =>
      have hle := @unmarkedCount_le V ys marks marks' h
      simp only [unmarkedCount, List.countP_cons] at hle ⊢
      rcases List.mem_cons.1 hx with rfl | hy
      · simp [hn, hx']
        omega
      · have hlt := ih hy
        simp only [unmarkedCount] at hlt
        cases hm : marks y with
        | false => cases marks' y <;> simp <;> omega
        | true => simp [h y hm]; omega

end Marking
