/-
# Open addressing

A table keeps its entries in cells.  The cells in which a key may be are tried in the order
of its path: an entry is in the first cell of it that was free, or to be used again, when it
came, and a search gives up at a free cell.  So a cell that an entry was taken from must not
become free if another entry's path goes through it.  It becomes `removed`, and to know
whether it has to, a cell remembers that a path crossed it.

`Probed` is what holds of the cells at any time: every entry can be reached on its path, and
no key is there twice.  A search ends at the key's entry or the key has none
(`Probed.absent`).  Entries that come and go keep it (`Probed.put`, `Probed.clear`), and so
does the marking of crossed cells on the way (`Probed.cross`).

Paths of an odd stride through a power of two of cells come through all of them
(`exists_stride`).
-/

import Mathlib.Algebra.Group.Nat.Defs
import Mathlib.Data.Nat.ModEq
import Mathlib.Data.Nat.GCD.Basic
import Mathlib.Data.Int.GCD
import Mathlib.Logic.Function.Basic

namespace Probing

/-- A cell is free, or was left by an entry on others' paths, or has an entry, with a note
whether another entry's path crosses it. -/
inductive Cell (α : Type*)
  | free
  | removed
  | taken (a : α) (crossed : Bool)
  deriving DecidableEq

variable {α κ ι : Type*} {key : α → κ} {path : κ → ℕ → ι} {cells cells' : ι → Cell α}
  {i j : ι} {a b : α} {c d : Bool} {k : κ} {n : ℕ}

/-- Paths go through such a cell. -/
def Cell.Passable : Cell α → Prop
  | .free => False
  | .removed => True
  | .taken _ crossed => crossed = true

/-- A search for the key ends at such a cell. -/
def Cell.Stops (key : α → κ) (k : κ) : Cell α → Prop
  | .free => True
  | .removed => False
  | .taken a _ => key a = k

/-- Every entry can be reached on the path of its key, and it is the only one of its key. -/
structure Probed (key : α → κ) (path : κ → ℕ → ι) (cells : ι → Cell α) : Prop where
  placed : ∀ i a c, cells i = .taken a c →
    ∃ n, path (key a) n = i ∧ ∀ m < n, (cells (path (key a) m)).Passable
  unique : ∀ i j a b c d, cells i = .taken a c → cells j = .taken b d → key a = key b → i = j

/-- The key has no entry. -/
def Absent (key : α → κ) (cells : ι → Cell α) (k : κ) : Prop :=
  ∀ i a c, cells i = .taken a c → key a ≠ k

/-- The second cell is the first one, but that a path may have crossed it. -/
inductive Crosses : Cell α → Cell α → Prop
  | same (x : Cell α) : Crosses x x
  | crossed (a : α) (c : Bool) : Crosses (.taken a c) (.taken a true)

/-- In a free store every key is where its probes lead. -/
theorem probed_free : Probed key path fun _ => (.free : Cell α) where
  placed _ _ _ h := by cases h
  unique _ _ _ _ _ _ h := by cases h

/-! ### Searches -/

/-- **A search does not overlook an entry.**  Where it ends first, if not at the entry, the
key has none. -/
theorem Probed.absent (h : Probed key path cells) (hfree : cells (path k n) = .free)
    (hfirst : ∀ m < n, ¬(cells (path k m)).Stops key k) : Absent key cells k := by
  rintro i a c hi rfl
  obtain ⟨m, hm, hpass⟩ := h.placed i a c hi
  rcases Nat.lt_trichotomy m n with hlt | rfl | hgt
  · refine hfirst m hlt ?_
    rw [hm, hi]
    exact rfl
  · rw [hm, hi] at hfree
    cases hfree
  · have hp := hpass n hgt
    rw [hfree] at hp
    exact hp

/-! ### Changes -/

/-- A crossed cell holds what it held. -/
theorem Crosses.taken_iff {x y : Cell α} (h : Crosses x y) :
    (∃ c, x = .taken a c) ↔ ∃ c, y = .taken a c := by
  cases h with
  | same => exact Iff.rfl
  | crossed b c => exact ⟨fun ⟨_, e⟩ => by cases e; exact ⟨true, rfl⟩,
      fun ⟨_, e⟩ => by cases e; exact ⟨c, rfl⟩⟩

/-- A crossed cell is free if it was. -/
theorem Crosses.free_iff {x y : Cell α} (h : Crosses x y) : y = .free ↔ x = .free := by
  cases h with
  | same => exact Iff.rfl
  | crossed => exact ⟨fun e => (by cases e), fun e => (by cases e)⟩

/-- A crossed cell is removed if it was. -/
theorem Crosses.removed_iff {x y : Cell α} (h : Crosses x y) : y = .removed ↔ x = .removed := by
  cases h with
  | same => exact Iff.rfl
  | crossed => exact ⟨fun e => (by cases e), fun e => (by cases e)⟩

/-- A crossed cell ends the same searches. -/
theorem Crosses.stops_iff {x y : Cell α} (h : Crosses x y) (key : α → κ) :
    y.Stops key k ↔ x.Stops key k := by
  cases h with
  | same => exact Iff.rfl
  | crossed => exact Iff.rfl

/-- A crossed cell can be passed if it could. -/
theorem Crosses.passable {x y : Cell α} (h : Crosses x y) (hx : x.Passable) : y.Passable := by
  cases h with
  | same => exact hx
  | crossed => exact rfl

/-- A cell may be crossed twice. -/
theorem Crosses.trans {x y z : Cell α} (h : Crosses x y) (h' : Crosses y z) : Crosses x z := by
  cases h with
  | same => exact h'
  | crossed a c =>
      cases h' with
      | same => exact .crossed a c
      | crossed => exact .crossed a c

/-- Cells may be marked as crossed. -/
theorem Probed.cross (h : Probed key path cells) (hc : ∀ i, Crosses (cells i) (cells' i)) :
    Probed key path cells' where
  placed i a c hi := by
    obtain ⟨c', hi'⟩ := (hc i).taken_iff.2 ⟨c, hi⟩
    obtain ⟨n, hn, hpass⟩ := h.placed i a c' hi'
    exact ⟨n, hn, fun m hm => (hc _).passable (hpass m hm)⟩
  unique i j a b c d hi hj hab := by
    obtain ⟨c', hi'⟩ := (hc i).taken_iff.2 ⟨c, hi⟩
    obtain ⟨d', hj'⟩ := (hc j).taken_iff.2 ⟨d, hj⟩
    exact h.unique i j a b c' d' hi' hj' hab

/-- A key that is absent stays so when cells are crossed. -/
theorem Absent.cross (h : Absent key cells k) (hc : ∀ i, Crosses (cells i) (cells' i)) :
    Absent key cells' k := by
  intro i a c hi
  obtain ⟨c', hi'⟩ := (hc i).taken_iff.2 ⟨c, hi⟩
  exact h i a c' hi'

variable [DecidableEq ι]

/-- **An entry comes** into a cell that has none, when the cells before it on its path are
passable.  The place of an entry that left stays crossed. -/
theorem Probed.put (h : Probed key path cells) (habs : Absent key cells (key a))
    (hpass : ∀ m < n, (cells (path (key a) m)).Passable)
    (hempty : cells (path (key a) n) = .free ∨ cells (path (key a) n) = .removed ∧ c = true) :
    Probed key path (Function.update cells (path (key a) n) (.taken a c)) := by
  have hnone : ∀ b d, cells (path (key a) n) ≠ .taken b d := by
    intro b d hb
    rcases hempty with e | ⟨e, _⟩ <;> rw [e] at hb <;> cases hb
  have hkeep : ∀ i, (cells i).Passable →
      (Function.update cells (path (key a) n) (.taken a c) i).Passable := by
    intro i hi
    by_cases he : i = path (key a) n
    · subst he
      rw [Function.update_self]
      rcases hempty with e | ⟨_, e⟩
      · rw [e] at hi
        exact hi.elim
      · exact e
    · rwa [Function.update_of_ne he]
  constructor
  · intro i b d hi
    by_cases he : i = path (key a) n
    · subst he
      rw [Function.update_self] at hi
      cases hi
      exact ⟨n, rfl, fun m hm => hkeep _ (hpass m hm)⟩
    · rw [Function.update_of_ne he] at hi
      obtain ⟨m, hm, hp⟩ := h.placed i b d hi
      exact ⟨m, hm, fun l hl => hkeep _ (hp l hl)⟩
  · intro i j b b' d d' hi hj hk
    by_cases hei : i = path (key a) n <;> by_cases hej : j = path (key a) n
    · exact hei.trans hej.symm
    · rw [hei, Function.update_self] at hi
      rw [Function.update_of_ne hej] at hj
      cases hi
      exact absurd hk.symm (habs j b' d' hj)
    · rw [hej, Function.update_self] at hj
      rw [Function.update_of_ne hei] at hi
      cases hj
      exact absurd hk (habs i b d hi)
    · rw [Function.update_of_ne hei] at hi
      rw [Function.update_of_ne hej] at hj
      exact h.unique i j b b' d d' hi hj hk

/-- **An entry goes.**  Its cell is free, unless a path crosses it. -/
theorem Probed.clear (h : Probed key path cells) (hi : cells i = .taken a c) :
    Probed key path (Function.update cells i (if c then .removed else .free)) := by
  have hkeep : ∀ j, (cells j).Passable →
      (Function.update cells i (if c then .removed else .free) j).Passable := by
    intro j hj
    by_cases he : j = i
    · subst he
      rw [hi] at hj
      have hc : c = true := hj
      rw [Function.update_self, if_pos hc]
      exact trivial
    · rwa [Function.update_of_ne he]
  have hold : ∀ j b d, Function.update cells i (if c then .removed else .free) j = .taken b d →
      cells j = .taken b d := by
    intro j b d hj
    by_cases he : j = i
    · subst he
      rw [Function.update_self] at hj
      split at hj <;> cases hj
    · rwa [Function.update_of_ne he] at hj
  constructor
  · intro j b d hj
    obtain ⟨n, hn, hp⟩ := h.placed j b d (hold j b d hj)
    exact ⟨n, hn, fun m hm => hkeep _ (hp m hm)⟩
  · intro j j' b b' d d' hj hj' hk
    exact h.unique j j' b b' d d' (hold _ _ _ hj) (hold _ _ _ hj') hk

/-- An entry may change, but for its key. -/
theorem Probed.replace (h : Probed key path cells) (hi : cells i = .taken a c)
    (hk : key b = key a) : Probed key path (Function.update cells i (.taken b c)) := by
  have hold : ∀ j b' d, Function.update cells i (.taken b c) j = .taken b' d →
      ∃ a', cells j = .taken a' d ∧ key a' = key b' := by
    intro j b' d hj
    by_cases he : j = i
    · subst he
      rw [Function.update_self] at hj
      cases hj
      exact ⟨a, hi, hk.symm⟩
    · rw [Function.update_of_ne he] at hj
      exact ⟨b', hj, rfl⟩
  constructor
  · intro j b' d hj
    obtain ⟨a', ha, hka⟩ := hold j b' d hj
    obtain ⟨n, hn, hp⟩ := h.placed j a' d ha
    rw [hka] at hn hp
    refine ⟨n, hn, fun m hm => ?_⟩
    have hm' := hp m hm
    by_cases he : path (key b') m = i
    · rw [he, Function.update_self]
      rwa [he, hi] at hm'
    · rwa [Function.update_of_ne he]
  · intro j j' b' b'' d d' hj hj' he
    obtain ⟨x, hx, hkx⟩ := hold j b' d hj
    obtain ⟨y, hy, hky⟩ := hold j' b'' d' hj'
    exact h.unique j j' x y d d' hx hy (by rw [hkx, hky, he])

/-! ### Paths -/

omit [DecidableEq ι] in
/-- **A stride that has no divisor with the number of cells** leads to all of them. -/
theorem exists_stride {m s : ℕ} (hm : 1 < m) (hs : Nat.Coprime s m) (start : ℕ) {i : ℕ}
    (hi : i < m) : ∃ n < m, (start + n * s) % m = i := by
  obtain ⟨u, -, hu⟩ := Nat.exists_mul_mod_eq_one_of_coprime hs hm
  have hu' : u * s ≡ 1 [MOD m] := by
    rw [Nat.mul_comm]
    exact hu.trans (Nat.mod_eq_of_lt hm).symm
  refine ⟨(i + (m - start % m)) * u % m, Nat.mod_lt _ (by omega), ?_⟩
  have hsum : start + (i + (m - start % m)) = i + m * (start / m + 1) := by
    have := Nat.div_add_mod start m
    have := Nat.mod_lt start (show 0 < m by omega)
    rw [Nat.mul_add, Nat.mul_one]
    omega
  have hcong : start + (i + (m - start % m)) * u % m * s ≡ i [MOD m] := by
    calc start + (i + (m - start % m)) * u % m * s
        ≡ start + (i + (m - start % m)) * u * s [MOD m] :=
          Nat.ModEq.add_left _ ((Nat.mod_modEq _ _).mul_right _)
      _ ≡ start + (i + (m - start % m)) * 1 [MOD m] := by
          rw [Nat.mul_assoc]
          exact Nat.ModEq.add_left _ (hu'.mul_left _)
      _ ≡ i [MOD m] := by
          rw [Nat.mul_one, hsum, Nat.ModEq, Nat.add_mul_mod_self_left]
  exact Nat.ModEq.eq_of_lt_of_lt (by rwa [Nat.ModEq, Nat.mod_mod]) (Nat.mod_lt _ (by omega)) hi

end Probing
