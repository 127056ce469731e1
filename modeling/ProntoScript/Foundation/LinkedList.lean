/-
# Doubly linked lists in a memory of cells

A memory maps addresses to cells with a `prev` and a `next` pointer, `none`
standing for the null pointer.  `Chain mem p hd l` says that following `next`
from `hd` meets exactly the cells of `l`, in order, that each one's `prev` is
the one met before it (`p` for the first), and that the walk ends at a null
pointer.  `Reaches mem hd a` says that the walk from `hd` meets `a`, whether or
not it ends; `walk mem n hd` lists the cells of a walk that ends.  Writes outside
a chain do not disturb it (`Chain.frame`), a walk only depends on the `next`
pointers (`Reaches.mono`), and one that ends meets no cell twice (`walk_nodup`),
however the cells are linked backwards.
-/

import Mathlib.Data.List.Nodup

namespace LinkedList

variable {α : Type*}

/-- A cell of a doubly linked list. -/
structure Cell (α : Type*) where
  data : α
  prev : Option ℕ
  next : Option ℕ
deriving DecidableEq

/-- The walk from `hd` meets exactly the cells of `l`, linked both ways. -/
def Chain (mem : ℕ → Cell α) : Option ℕ → Option ℕ → List (ℕ × α) → Prop
  | _, hd, [] => hd = none
  | p, hd, (a, x) :: l =>
      hd = some a ∧ (mem a).data = x ∧ (mem a).prev = p ∧ Chain mem (some a) (mem a).next l

/-- The walk along `next` from `hd` meets `a`. -/
inductive Reaches (mem : ℕ → Cell α) : Option ℕ → ℕ → Prop
  | here (a : ℕ) : Reaches mem (some a) a
  | step {a b : ℕ} : Reaches mem (mem a).next b → Reaches mem (some a) b

@[simp] theorem chain_nil {mem : ℕ → Cell α} {p hd : Option ℕ} :
    Chain mem p hd [] ↔ hd = none := Iff.rfl

@[simp] theorem chain_cons {mem : ℕ → Cell α} {p hd : Option ℕ} {a : ℕ} {x : α}
    {l : List (ℕ × α)} :
    Chain mem p hd ((a, x) :: l) ↔
      hd = some a ∧ (mem a).data = x ∧ (mem a).prev = p ∧ Chain mem (some a) (mem a).next l :=
  Iff.rfl

/-- Writes outside a chain do not disturb it. -/
theorem Chain.frame {mem mem' : ℕ → Cell α} {p hd : Option ℕ} {l : List (ℕ × α)}
    (h : Chain mem p hd l) (hm : ∀ a ∈ l.map Prod.fst, mem' a = mem a) : Chain mem' p hd l := by
  induction l generalizing p hd with
  | nil => exact h
  | cons c l ih =>
      obtain ⟨a, x⟩ := c
      obtain ⟨rfl, hx, hp, hl⟩ := h
      have ha : mem' a = mem a := hm a (by simp)
      have hl' := ih hl fun b hb => hm b (by
        rw [List.map_cons]
        exact List.mem_cons_of_mem _ hb)
      exact ⟨rfl, by rw [ha]; exact hx, by rw [ha]; exact hp, by rw [ha]; exact hl'⟩

/-- Only the head cell looks at the pointer the chain was entered by. -/
theorem Chain.relink {mem mem' : ℕ → Cell α} {p p' hd : Option ℕ} {l : List (ℕ × α)}
    (h : Chain mem p hd l) (hnd : (l.map Prod.fst).Nodup)
    (hhd : ∀ a, hd = some a → mem' a = { mem a with prev := p' })
    (hm : ∀ a ∈ l.map Prod.fst, hd ≠ some a → mem' a = mem a) : Chain mem' p' hd l := by
  cases l with
  | nil => exact h
  | cons c l =>
      obtain ⟨a, x⟩ := c
      obtain ⟨rfl, hx, -, hl⟩ := h
      have ha := hhd a rfl
      have hnot : a ∉ l.map Prod.fst := (List.nodup_cons.1 (by simpa using hnd)).1
      have hl' : Chain mem' (some a) (mem a).next l := hl.frame fun b hb =>
        hm b (by rw [List.map_cons]; exact List.mem_cons_of_mem _ hb)
          fun he => hnot (Option.some.inj he ▸ hb)
      exact ⟨rfl, by rw [ha]; exact hx, by rw [ha], by rw [ha]; exact hl'⟩

/-- A walk meets exactly the cells of the chain it follows. -/
theorem Chain.reaches_iff {mem : ℕ → Cell α} {p hd : Option ℕ} {l : List (ℕ × α)}
    (h : Chain mem p hd l) {b : ℕ} : Reaches mem hd b ↔ b ∈ l.map Prod.fst := by
  induction l generalizing p hd with
  | nil =>
      rw [chain_nil] at h
      subst h
      constructor
      · rintro ⟨⟩
      · simp
  | cons c l ih =>
      obtain ⟨a, x⟩ := c
      obtain ⟨rfl, -, -, hl⟩ := h
      rw [List.map_cons, List.mem_cons, ← ih hl]
      constructor
      · rintro (_ | hr)
        · exact .inl rfl
        · exact .inr hr
      · rintro (rfl | hr)
        · exact .here _
        · exact .step hr

/-- A walk still meets the cells of a chain in any memory with the same `next`
pointers there. -/
theorem Chain.reaches_of_next {mem mem' : ℕ → Cell α} {p hd : Option ℕ} {l : List (ℕ × α)}
    (h : Chain mem p hd l) (hn : ∀ a ∈ l.map Prod.fst, (mem' a).next = (mem a).next) {b : ℕ}
    (hb : b ∈ l.map Prod.fst) : Reaches mem' hd b := by
  induction l generalizing p hd with
  | nil => simp at hb
  | cons c l ih =>
      obtain ⟨a, x⟩ := c
      obtain ⟨rfl, -, -, hl⟩ := h
      rw [List.map_cons, List.mem_cons] at hb
      rcases hb with rfl | hb
      · exact .here _
      · refine .step ?_
        rw [hn a (by simp)]
        exact ih hl (fun d hd => hn d (by rw [List.map_cons]; exact List.mem_cons_of_mem _ hd)) hb

/-- The data along a chain is the data in the memory. -/
theorem Chain.data_eq {mem : ℕ → Cell α} {p hd : Option ℕ} {l : List (ℕ × α)}
    (h : Chain mem p hd l) {a : ℕ} {x : α} (ha : (a, x) ∈ l) : (mem a).data = x := by
  induction l generalizing p hd with
  | nil => simp at ha
  | cons c l ih =>
      obtain ⟨b, y⟩ := c
      obtain ⟨-, hy, -, hl⟩ := h
      rcases List.mem_cons.1 ha with he | ha
      · obtain ⟨rfl, rfl⟩ := Prod.mk.inj he
        exact hy
      · exact ih hl ha

/-- Cells with pairwise different data stand at pairwise different addresses. -/
theorem Chain.nodup {mem : ℕ → Cell α} {p hd : Option ℕ} {l : List (ℕ × α)}
    (h : Chain mem p hd l) (hnd : (l.map Prod.snd).Nodup) : (l.map Prod.fst).Nodup := by
  have hmap : (l.map Prod.fst).map (fun a => (mem a).data) = l.map Prod.snd := by
    rw [List.map_map]
    exact List.map_congr_left fun c hc => h.data_eq (a := c.1) (x := c.2) hc
  exact List.Nodup.of_map _ (hmap ▸ hnd)

/-- A walk only depends on the `next` pointers. -/
theorem Reaches.mono {mem mem' : ℕ → Cell α} (hn : ∀ a, (mem' a).next = (mem a).next)
    {hd : Option ℕ} {a : ℕ} (h : Reaches mem hd a) : Reaches mem' hd a := by
  induction h with
  | here a => exact .here a
  | step _ ih => exact .step (by rw [hn]; exact ih)

/-! ### Walks that end -/

/-- The cells met along `next` from `hd`, if the walk ends within `n` steps. -/
def walk (mem : ℕ → Cell α) : ℕ → Option ℕ → Option (List ℕ)
  | _, none => some []
  | 0, some _ => none
  | n + 1, some a => (walk mem n (mem a).next).map (a :: ·)

section Walk

variable {mem mem' : ℕ → Cell α} {n k a : ℕ} {hd : Option ℕ} {l l' : List ℕ}

@[simp] theorem walk_none : walk mem n none = some [] := by cases n <;> rfl

/-- A walk is the first node and the walk from the next one. -/
theorem walk_succ : walk mem (n + 1) (some a) = (walk mem n (mem a).next).map (a :: ·) := rfl

/-- A walk that is not over at once meets its first cell and goes on from there. -/
theorem walk_some (h : walk mem n (some a) = some l) :
    ∃ k l', n = k + 1 ∧ l = a :: l' ∧ walk mem k (mem a).next = some l' := by
  cases n with
  | zero => cases h
  | succ k =>
      obtain ⟨l', hl', rfl⟩ := Option.map_eq_some_iff.1 (walk_succ ▸ h)
      exact ⟨k, l', rfl, rfl, hl'⟩

/-- Where a walk ends does not depend on the bound. -/
theorem walk_unique (h : walk mem n hd = some l) (h' : walk mem k hd = some l') : l = l' := by
  induction n generalizing k hd l l' with
  | zero =>
      cases hd with
      | none => simp_all
      | some a => cases h
  | succ n ih =>
      cases hd with
      | none => simp_all
      | some a =>
          obtain ⟨n', r, hn, rfl, hr⟩ := walk_some h
          obtain ⟨k', r', -, rfl, hr'⟩ := walk_some h'
          obtain rfl := Nat.succ.inj hn
          rw [ih hr hr']

/-- A larger bound leaves a walk that ends as it is. -/
theorem walk_mono (h : walk mem n hd = some l) (hk : n ≤ k) : walk mem k hd = some l := by
  induction n generalizing k hd l with
  | zero => cases hd <;> simp_all [walk]
  | succ n ih =>
      cases hd with
      | none => simp_all
      | some a =>
          obtain ⟨n', r, hn, rfl, hr⟩ := walk_some h
          obtain rfl := Nat.succ.inj hn
          obtain ⟨k, rfl⟩ : ∃ j, k = j + 1 := ⟨k - 1, by omega⟩
          rw [walk_succ, ih hr (by omega)]
          rfl

/-- A walk goes on from each cell it meets. -/
theorem walk_of_mem (h : walk mem n hd = some l) (ha : a ∈ l) :
    ∃ k l', walk mem k (some a) = some (a :: l') ∧ (a :: l').length ≤ l.length := by
  induction n generalizing hd l with
  | zero => cases hd <;> simp_all [walk]
  | succ n ih =>
      cases hd with
      | none => simp_all
      | some b =>
          obtain ⟨k, r, hk, rfl, hr⟩ := walk_some h
          rcases List.mem_cons.1 ha with rfl | ha
          · exact ⟨_, r, h, Nat.le_refl _⟩
          · obtain rfl := Nat.succ.inj hk
            obtain ⟨k, l', hl', hlen⟩ := ih hr ha
            exact ⟨k, l', hl', Nat.le_trans hlen (by simp)⟩

/-- **A walk that ends meets no cell twice**: from the second meeting on it would go
the same way as from the first, and so be as long as its own tail. -/
theorem walk_nodup (h : walk mem n hd = some l) : l.Nodup := by
  induction n generalizing hd l with
  | zero => cases hd <;> simp_all [walk]
  | succ n ih =>
      cases hd with
      | none => simp_all
      | some a =>
          obtain ⟨k, r, hk, rfl, hr⟩ := walk_some h
          obtain rfl := Nat.succ.inj hk
          refine List.nodup_cons.2 ⟨fun ha => ?_, ih hr⟩
          obtain ⟨k, r', hr', hlen⟩ := walk_of_mem hr ha
          have hsame : a :: r = a :: r' := walk_unique h hr'
          rw [← hsame, List.length_cons] at hlen
          omega

/-- A walk that ends meets whatever can be reached. -/
theorem Reaches.mem_walk (hr : Reaches mem hd a) (h : walk mem n hd = some l) : a ∈ l := by
  induction hr generalizing n l with
  | here a =>
      obtain ⟨k, r, -, rfl, -⟩ := walk_some h
      simp
  | step _ ih =>
      obtain ⟨k, r, -, rfl, hr⟩ := walk_some h
      exact List.mem_cons_of_mem _ (ih hr)

/-- A chain is walked in its order. -/
theorem Chain.walk_eq {p : Option ℕ} {l : List (ℕ × α)} (h : Chain mem p hd l) :
    walk mem l.length hd = some (l.map Prod.fst) := by
  induction l generalizing p hd with
  | nil =>
      rw [chain_nil] at h
      subst h
      simp
  | cons c l ih =>
      obtain ⟨a, x⟩ := c
      obtain ⟨rfl, -, -, hl⟩ := h
      rw [List.length_cons, walk_succ, ih hl]
      rfl

/-- A walk only depends on the `next` pointers. -/
theorem walk_congr (hn : ∀ a, (mem' a).next = (mem a).next) : walk mem' n hd = walk mem n hd := by
  induction n generalizing hd with
  | zero => cases hd <;> rfl
  | succ n ih =>
      cases hd with
      | none => rfl
      | some a => rw [walk_succ, walk_succ, hn, ih]

/-- Writes outside a walk that ends do not disturb it. -/
theorem walk_frame (h : walk mem n hd = some l) (hm : ∀ a ∈ l, (mem' a).next = (mem a).next) :
    walk mem' n hd = some l := by
  induction n generalizing hd l with
  | zero => cases hd <;> simp_all [walk]
  | succ n ih =>
      cases hd with
      | none => simp_all
      | some a =>
          obtain ⟨k, r, hk, rfl, hr⟩ := walk_some h
          obtain rfl := Nat.succ.inj hk
          rw [walk_succ, hm a (by simp), ih hr fun b hb => hm b (List.mem_cons_of_mem _ hb)]
          rfl

end Walk

end LinkedList
