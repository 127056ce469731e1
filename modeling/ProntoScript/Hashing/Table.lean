/-
# Tables in order

`Tidy` is what a table is for its searches: the entries can be reached, no key is there
twice, the live ones store the hashes of their keys and the other ones have clear members.
`Sound` adds the two counts, with at least one entry free, which is what a search ends at.
What the table is about is which bodies it `Stores`.

An entry comes (`Tidy.place`) and goes (`Sound.rawRemove`).
-/

import ProntoScript.Hashing.Search
import Mathlib.Data.List.Basic

namespace ProntoScript

open DHash Probing

variable {κ β : Type*}

/-! ### Counting entries -/

/-- How many of the entries have a property. -/
def countEntries (p : DHashEntry β → Bool) (size : ℕ) (store : ℕ → DHashEntry β) : ℕ :=
  (List.range size).countP fun i => p (store i)

section Counts

variable {p : DHashEntry β → Bool} {store store' : ℕ → DHashEntry β} {size i : ℕ}
  {e : DHashEntry β}

/-- Counts depend on the property of each entry only. -/
theorem countEntries_congr (h : ∀ i, p (store' i) = p (store i)) :
    countEntries p size store' = countEntries p size store := by
  unfold countEntries
  simp only [h]

/-- Writing one entry changes a count by that entry. -/
theorem countEntries_update (hi : i < size) :
    countEntries p size (Function.update store i e) + (p (store i)).toNat =
      countEntries p size store + (p e).toNat := by
  induction size with
  | zero => omega
  | succ n ih =>
      simp only [countEntries, List.range_succ, List.countP_append, List.countP_singleton] at ih ⊢
      rcases Nat.lt_succ_iff_lt_or_eq.1 hi with hlt | rfl
      · rw [Function.update_of_ne (show n ≠ i by omega)]
        have := ih hlt
        omega
      · rw [Function.update_self]
        have hsame : (List.range i).countP (fun j => p (Function.update store i e j)) =
            (List.range i).countP fun j => p (store j) := by
          refine List.countP_congr fun j hj => ?_
          rw [Function.update_of_ne (by have := List.mem_range.1 hj; omega)]
        rw [hsame]
        cases p (store i) <;> cases p e <;> simp

/-- Every entry is free, removed or live. -/
theorem countEntries_all (size : ℕ) (store : ℕ → DHashEntry β) :
    countEntries DHashEntry.isFree size store + countEntries DHashEntry.isRemoved size store +
      countEntries DHashEntry.isLive size store = size := by
  induction size with
  | zero => rfl
  | succ n ih =>
      simp only [countEntries, List.range_succ, List.countP_append, List.countP_singleton] at ih ⊢
      have hone : ∀ e : DHashEntry β,
          e.isFree.toNat + e.isRemoved.toNat + e.isLive.toNat = 1 := by
        intro e
        have hl := @DHashEntry.isLive_iff β e
        have hx : ¬(e.isFree = true ∧ e.isRemoved = true) := by
          rw [DHashEntry.isFree, DHashEntry.isRemoved, beq_iff_eq, beq_iff_eq]
          rintro ⟨h0, h1⟩
          rw [h0] at h1
          exact absurd h1 (by decide)
        cases hf : e.isFree <;> cases hr : e.isRemoved <;> cases hv : e.isLive <;> simp_all
      have := hone (store n)
      cases hf : (store n).isFree <;> cases hr : (store n).isRemoved <;>
        cases hv : (store n).isLive <;> simp [hf, hr, hv] at this ⊢ <;> omega

/-- What is counted is there. -/
theorem exists_of_countEntries_pos (h : 0 < countEntries p size store) :
    ∃ i < size, p (store i) = true := by
  obtain ⟨i, hi, hp⟩ := List.countP_pos_iff.1 h
  exact ⟨i, List.mem_range.1 hi, hp⟩

/-- What is there is counted. -/
theorem countEntries_pos (hi : i < size) (hp : p (store i) = true) :
    0 < countEntries p size store :=
  List.countP_pos_iff.2 ⟨i, List.mem_range.2 hi, hp⟩

end Counts

namespace DHashTable

variable {ops : DHashOps κ β} {t t' : DHashTable β} {key : κ} {op : DHashOperator} {i j n : ℕ}
  {e : DHashEntry β} {b b' : β} {c : Bool}

/-- How many entries are live. -/
def liveCount (t : DHashTable β) : ℕ := countEntries DHashEntry.isLive t.size t.entryStore

/-- How many removed entries there are. -/
def sentinels (t : DHashTable β) : ℕ := countEntries DHashEntry.isRemoved t.size t.entryStore

/-- A live entry has the body. -/
def Stores (t : DHashTable β) (b : β) : Prop := ∃ i c, t.cells i = .taken b c

/-- The table is in order for searches, and what is not live is clear. -/
structure Tidy (ops : DHashOps κ β) (t : DHashTable β) : Prop where
  shift : 8 < t.hashShift ∧ t.hashShift ≤ 28
  probed : Probed ops.getKey (path ops t.hashShift) t.cells
  hashed : t.Hashed ops
  clear : ∀ i, (t.entryStore i).isLive = false → (t.entryStore i).body = ops.cleared

/-- The table is in order, and its counts are right. -/
structure Sound (ops : DHashOps κ β) (t : DHashTable β) : Prop extends Tidy ops t where
  live : t.entryCount = t.liveCount
  removed : t.removedCount = t.sentinels
  room : t.entryCount + t.removedCount < t.size
  alpha : t.maxAlphaFrac < 256 ∧ t.minAlphaFrac < 128

/-- Probes stay within the table. -/
theorem path_lt (hs : 8 < t.hashShift ∧ t.hashShift ≤ 28) (key : κ) (n : ℕ) :
    path ops t.hashShift key n < t.size :=
  have hpos : 0 < t.hashShift := by omega
  have hle : t.hashShift ≤ 32 := by omega
  probeHash_lt hpos hle n

/-- An entry that is taken lies within the table. -/
theorem Tidy.lt_size (h : t.Tidy ops) (hi : t.cells i = .taken b c) : i < t.size := by
  obtain ⟨n, hn, _⟩ := h.probed.placed i b c hi
  rw [← hn]
  exact path_lt h.shift _ n

/-- An entry whose cell is taken is live. -/
theorem isLive_of_taken (hi : t.cells i = .taken b c) : (t.entryStore i).isLive = true :=
  (DHashEntry.cell_eq_taken.1 hi).1

/-- In a sound table something is free, at which every search ends. -/
theorem Sound.exists_free (h : t.Sound ops) : ∃ i < t.size, t.cells i = .free := by
  have hall := countEntries_all t.size t.entryStore
  have hroom := h.room
  have hlive := h.live
  have hrem := h.removed
  unfold liveCount at hlive
  unfold sentinels at hrem
  have hpos : 0 < countEntries DHashEntry.isFree t.size t.entryStore := by omega
  obtain ⟨i, hi, hp⟩ := exists_of_countEntries_pos hpos
  exact ⟨i, hi, DHashEntry.cell_eq_free.2 hp⟩

/-- A table of at most `2 ^ 23` entries. -/
theorem size_le (hs : 8 < t.hashShift ∧ t.hashShift ≤ 28) : 16 ≤ t.size ∧ t.size ≤ 2 ^ 23 := by
  have h4 : 4 ≤ bits - t.hashShift := by
    unfold bits
    omega
  have h23 : bits - t.hashShift ≤ 23 := by
    unfold bits
    omega
  have htwo : 0 < 2 := by decide
  exact ⟨Nat.pow_le_pow_right htwo h4, Nat.pow_le_pow_right htwo h23⟩

/-- **A search** in a sound table returns: it sets flags, and finds the entry of the key,
or one to put it. -/
theorem Sound.search (hl : ops.Lawful) (h : t.Sound ops) (key : κ) (op : DHashOperator) :
    ∃ j t', searchTable ops t key (keyHashOf ops key) op = some (j, t') ∧ Flagged op t t' ∧
      Found ops t t' key op j := by
  obtain ⟨i, hi, hfree⟩ := h.exists_free
  have hs := h.shift
  have hpos : 0 < t.hashShift := by omega
  have hlt : t.hashShift < 32 := by omega
  exact searchTable_spec hl h.hashed hpos hlt hi hfree

/-- A key that was not met before the first free entry on its path has none. -/
theorem Tidy.absent (h : t.Tidy ops) {n : ℕ}
    (hn : t.cells (path ops t.hashShift key n) = .free ∧
      ∀ m < n, ¬(t.cells (path ops t.hashShift key m)).Stops ops.getKey key) :
    Absent ops.getKey t.cells key :=
  h.probed.absent hn.1 hn.2

/-! ### Changes -/

/-- Writing an entry is writing its cell. -/
theorem cells_setEntry (t : DHashTable β) (i : ℕ) (e : DHashEntry β) :
    (t.setEntry i e).cells = Function.update t.cells i e.cell := by
  funext j
  unfold cells
  by_cases he : j = i
  · subst he
    rw [setEntry_entryStore, Function.update_self, Function.update_self]
  · rw [setEntry_entryStore, Function.update_of_ne he, Function.update_of_ne he]

/-- A search keeps a table tidy. -/
theorem Flagged.tidy (hf : Flagged op t t') (h : t.Tidy ops) : t'.Tidy ops := by
  have hshift := hf.hashShift_eq
  constructor
  · rw [hshift]
    exact h.shift
  · rw [hshift]
    exact h.probed.cross hf.crosses
  · exact hf.hashed h.hashed
  · intro i hi
    rw [hf.isLive] at hi
    rw [hf.body]
    exact h.clear i hi

/-- A search does not change what is stored. -/
theorem Flagged.stores_iff (hf : Flagged op t t') (b : β) : t'.Stores b ↔ t.Stores b :=
  ⟨fun ⟨i, hc⟩ => ⟨i, (hf.crosses i).taken_iff.2 hc⟩,
    fun ⟨i, hc⟩ => ⟨i, (hf.crosses i).taken_iff.1 hc⟩⟩

/-- A search removes no entry, and recycles none. -/
theorem Flagged.isRemoved (hf : Flagged op t t') (j : ℕ) :
    (t'.entryStore j).isRemoved = (t.entryStore j).isRemoved := by
  have h := (hf.crosses j).removed_iff
  unfold cells at h
  rw [DHashEntry.cell_eq_removed, DHashEntry.cell_eq_removed] at h
  exact Bool.eq_iff_iff.2 h

/-- A search does not change the number of live entries. -/
theorem Flagged.liveCount (hf : Flagged op t t') : t'.liveCount = t.liveCount := by
  rw [DHashTable.liveCount, hf.size_eq]
  exact countEntries_congr hf.isLive

/-- A search does not change the number of removed entries. -/
theorem Flagged.sentinels (hf : Flagged op t t') : t'.sentinels = t.sentinels := by
  rw [DHashTable.sentinels, hf.size_eq]
  exact countEntries_congr hf.isRemoved

/-- A search keeps a table sound. -/
theorem Flagged.sound (hf : Flagged op t t') (h : t.Sound ops) : t'.Sound ops where
  toTidy := hf.tidy h.toTidy
  live := by rw [hf.liveCount, ← h.live, hf.rest]
  removed := by rw [hf.sentinels, ← h.removed, hf.rest]
  room := by
    rw [hf.rest]
    exact h.room
  alpha := by
    rw [hf.rest]
    exact h.alpha

/-- What a table stores after one of its entries was written. -/
theorem stores_setEntry (t : DHashTable β) (i : ℕ) (e : DHashEntry β) (b : β) :
    (t.setEntry i e).Stores b ↔
      (∃ c, e.cell = .taken b c) ∨ ∃ j, j ≠ i ∧ ∃ c, t.cells j = .taken b c := by
  unfold Stores
  rw [cells_setEntry]
  constructor
  · rintro ⟨j, c, hj⟩
    by_cases he : j = i
    · subst he
      rw [Function.update_self] at hj
      exact .inl ⟨c, hj⟩
    · rw [Function.update_of_ne he] at hj
      exact .inr ⟨j, he, c, hj⟩
  · rintro (⟨c, hc⟩ | ⟨j, he, c, hc⟩)
    · exact ⟨i, c, by rw [Function.update_self]; exact hc⟩
    · exact ⟨j, c, by rw [Function.update_of_ne he]; exact hc⟩

/-- What is stored in the other entries. -/
theorem Tidy.stored_elsewhere (h : t.Tidy ops) (hi : t.cells i = .taken b c) (b' : β) :
    (∃ j, j ≠ i ∧ ∃ d, t.cells j = .taken b' d) ↔
      t.Stores b' ∧ ops.getKey b' ≠ ops.getKey b := by
  constructor
  · rintro ⟨j, he, d, hj⟩
    exact ⟨⟨j, d, hj⟩, fun hkey => he (h.probed.unique j i b' b d c hj hi hkey)⟩
  · rintro ⟨⟨j, d, hj⟩, hne⟩
    refine ⟨j, fun he => ?_, d, hj⟩
    subst he
    rw [hi] at hj
    cases hj
    exact hne rfl

/-- An entry written with the hash of its key keeps the hashes right. -/
theorem Hashed.setEntry (h : t.Hashed ops)
    (he : e.isLive = true →
      e.keyHash &&& ~~~collisionFlag = keyHashOf ops (ops.getKey e.body)) :
    (t.setEntry i e).Hashed ops := by
  intro j hj
  rw [setEntry_entryStore] at hj ⊢
  by_cases hij : j = i
  · subst hij
    rw [Function.update_self] at hj ⊢
    exact he hj
  · rw [Function.update_of_ne hij] at hj ⊢
    exact h j hj

/-- An entry written live, or cleared, keeps those that are not live clear. -/
theorem Tidy.clear_setEntry (h : t.Tidy ops) (he : e.isLive = true ∨ e.body = ops.cleared) (j : ℕ)
    (hj : ((t.setEntry i e).entryStore j).isLive = false) :
    ((t.setEntry i e).entryStore j).body = ops.cleared := by
  rw [setEntry_entryStore] at hj ⊢
  by_cases hij : j = i
  · subst hij
    rw [Function.update_self] at hj ⊢
    refine he.resolve_left fun hlive => ?_
    rw [hlive] at hj
    exact absurd hj.symm Bool.false_ne_true
  · rw [Function.update_of_ne hij] at hj ⊢
    exact h.clear j hj

/-- **A new entry** is put where the search for its key has found an empty one. -/
theorem Tidy.place (h : t.Tidy ops) (hf : Flagged .add t t')
    (hi : i = path ops t.hashShift key n) (hempty : t.cells i = .free ∨ t.cells i = .removed)
    (hpass : ∀ m < n, (t'.cells (path ops t.hashShift key m)).Passable)
    (habsent : Absent ops.getKey t.cells key)
    (hcell : e.cell = .taken b c) (hkey : ops.getKey b = key)
    (hhash : e.keyHash &&& ~~~collisionFlag = keyHashOf ops key)
    (hc : t.cells i = .removed → c = true) :
    (t'.setEntry i e).Tidy ops ∧
      ∀ b', (t'.setEntry i e).Stores b' ↔ b' = b ∨ t.Stores b' := by
  have h' := hf.tidy h
  have hshift := hf.hashShift_eq
  have hempty' : t'.cells i = .free ∨ t'.cells i = .removed ∧ c = true :=
    hempty.imp (hf.crosses i).free_iff.2 fun e => ⟨(hf.crosses i).removed_iff.2 e, hc e⟩
  subst hi
  subst hkey
  obtain ⟨hlive, hbody, -⟩ := DHashEntry.cell_eq_taken.1 hcell
  refine ⟨⟨h'.shift, ?_, h'.hashed.setEntry fun _ => by rw [hbody]; exact hhash,
    h'.clear_setEntry (.inl hlive)⟩, fun b' => ?_⟩
  · rw [cells_setEntry, hcell, setEntry_hashShift, hshift]
    have hp := h'.probed
    rw [hshift] at hp
    exact hp.put (habsent.cross hf.crosses) hpass hempty'
  · rw [stores_setEntry, hcell]
    constructor
    · rintro (⟨_, hb⟩ | ⟨j, _, hj⟩)
      · cases hb
        exact .inl rfl
      · exact .inr ((hf.stores_iff b').1 ⟨j, hj⟩)
    · rintro (rfl | hb)
      · exact .inl ⟨c, rfl⟩
      · obtain ⟨j, d, hj⟩ := (hf.stores_iff b').2 hb
        refine .inr ⟨j, fun he => ?_, d, hj⟩
        subst he
        rcases hempty' with e | ⟨e, _⟩ <;> rw [e] at hj <;> cases hj

end DHashTable

end ProntoScript
