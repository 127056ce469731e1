/-
# Enumerations

`JS_DHashTableEnumerate` shows the live entries to a callback, one after the other, which
may have them removed or stop it.  What it comes to does not depend on where the entries
are: the callback goes over a list of the bodies that the table stores, each once (`visit`),
and the table loses those that it wanted removed (`Sound.enumerate`).  Only at the end may
the table change its size, to one that is still large enough.
-/

import ProntoScript.Hashing.Operate
import Mathlib.Data.Nat.Log
import Mathlib.Data.List.Nodup

namespace ProntoScript

open DHash Probing

namespace DHash

/-! ### The logarithm -/

/-- A round of `JS_CEILING_LOG2` moves bits of the logarithm from the number to the sum. -/
theorem log2_round (k log2 n : ℕ) :
    (if n >>> k ≠ 0 then (log2 + k, n >>> k) else (log2, n)).1 +
        Nat.log 2 (if n >>> k ≠ 0 then (log2 + k, n >>> k) else (log2, n)).2 =
      log2 + Nat.log 2 n ∧
    (n < 2 ^ (k + k) → (if n >>> k ≠ 0 then (log2 + k, n >>> k) else (log2, n)).2 < 2 ^ k) := by
  have hshift : n >>> k = n / 2 ^ k := Nat.shiftRight_eq_div_pow n k
  by_cases h : n >>> k ≠ 0
  · have hle : 2 ^ k ≤ n := by
      by_contra hlt
      exact h (hshift.trans (Nat.div_eq_of_lt (Nat.lt_of_not_le hlt)))
    have hlog : k ≤ Nat.log 2 n := Nat.le_log_of_pow_le (by decide) hle
    rw [if_pos h, hshift, Nat.log_div_base_pow]
    refine ⟨by dsimp only; omega, fun hn => ?_⟩
    rw [Nat.pow_add] at hn
    exact Nat.div_lt_of_lt_mul hn
  · rw [if_neg h]
    refine ⟨rfl, fun _ => ?_⟩
    have hz := not_not.1 h
    rw [hshift] at hz
    exact (Nat.div_eq_zero_iff_lt (Nat.two_pow_pos k)).1 hz

/-- **`JS_CEILING_LOG2`** is the logarithm, rounded up. -/
theorem ceilingLog2_eq {n : ℕ} (hpos : n ≠ 0) (hlt : n < 2 ^ 32) :
    ceilingLog2 n = Nat.log 2 n + if n.isPowerOfTwo then 0 else 1 := by
  have hdec : decrement n = n - 1 := by
    simp only [decrement, uint32]
    omega
  have hpow := Nat.and_sub_one_eq_zero_iff_isPowerOfTwo hpos
  unfold ceilingLog2
  simp only [hdec, ne_eq, hpow]
  generalize hstart : (if ¬n.isPowerOfTwo then 1 else 0) = start
  have h16 := log2_round 16 start n
  simp only [ne_eq] at h16
  generalize (if ¬n >>> 16 = 0 then (start + 16, n >>> 16) else (start, n)) = p at h16 ⊢
  obtain ⟨l₁, n₁⟩ := p
  have h8 := log2_round 8 l₁ n₁
  simp only [ne_eq] at h8 ⊢
  generalize (if ¬n₁ >>> 8 = 0 then (l₁ + 8, n₁ >>> 8) else (l₁, n₁)) = p at h8 ⊢
  obtain ⟨l₂, n₂⟩ := p
  have h4 := log2_round 4 l₂ n₂
  simp only [ne_eq] at h4 ⊢
  generalize (if ¬n₂ >>> 4 = 0 then (l₂ + 4, n₂ >>> 4) else (l₂, n₂)) = p at h4 ⊢
  obtain ⟨l₃, n₃⟩ := p
  have h2 := log2_round 2 l₃ n₃
  simp only [ne_eq] at h2 ⊢
  generalize (if ¬n₃ >>> 2 = 0 then (l₃ + 2, n₃ >>> 2) else (l₃, n₃)) = p at h2 ⊢
  obtain ⟨l₄, n₄⟩ := p
  have hn₄ : n₄ < 2 ^ 2 := h2.2 (h4.2 (h8.2 (h16.2 hlt)))
  have hlast : (if ¬n₄ >>> 1 = 0 then l₄ + 1 else l₄) = l₄ + Nat.log 2 n₄ := by
    have hcases : n₄ = 0 ∨ n₄ = 1 ∨ n₄ = 2 ∨ n₄ = 3 := by omega
    rcases hcases with rfl | rfl | rfl | rfl <;> rfl
  have hsum : l₄ + Nat.log 2 n₄ = start + Nat.log 2 n := by
    simp only at h16 h8 h4 h2
    omega
  dsimp only
  rw [hlast, hsum, ← hstart, ite_not, Nat.add_comm]

/-- `JS_CEILING_LOG2` is large enough, for a word that is not 0. -/
theorem le_two_pow_ceilingLog2 {n : ℕ} (hpos : n ≠ 0) (hlt : n < 2 ^ 32) :
    n ≤ 2 ^ ceilingLog2 n := by
  rw [ceilingLog2_eq hpos hlt]
  split
  · next h =>
      obtain ⟨k, rfl⟩ := h
      rw [Nat.log_pow (by decide)]
      exact Nat.le_refl _
  · exact Nat.le_of_lt (Nat.lt_pow_succ_log_self (by decide) n)

/-- The rounded logarithm is at least the floor. -/
theorem log_le_ceilingLog2 {n : ℕ} (hpos : n ≠ 0) (hlt : n < 2 ^ 32) :
    Nat.log 2 n ≤ ceilingLog2 n := by
  rw [ceilingLog2_eq hpos hlt]
  exact Nat.le_add_right _ _

/-- A table has 16 entries or more. -/
theorem four_le_ceilingLog2 {n : ℕ} (hn : 16 ≤ n) (hlt : n < 2 ^ 32) : 4 ≤ ceilingLog2 n := by
  have hpos : n ≠ 0 := by omega
  exact (Nat.le_log_of_pow_le (by decide) hn).trans (log_le_ceilingLog2 hpos hlt)

end DHash

variable {κ β σ : Type*}

namespace DHashTable

variable {ops : DHashOps κ β} {t t' : DHashTable β} {key : κ} {i j n : ℕ} {b b' : β} {c : Bool}
  {etor : β → ℕ → σ → Enumerated σ}

/-! ### Empty tables -/

/-- **A new table** is in order, and empty. -/
theorem init_sound (capacity : ℕ) (alloc : Bool) (hcap : capacity < 2 ^ 32)
    (h : init ops capacity alloc = some t) : t.Sound ops ∧ ∀ b, ¬t.Stores b := by
  simp only [init] at h
  generalize hn : (if capacity < minSize then minSize else capacity) = n at h
  have hn16 : 16 ≤ n ∧ n < 2 ^ 32 := by
    rw [← hn, minSize]
    split <;> omega
  obtain ⟨hn16, hn32⟩ := hn16
  have hmin := four_le_ceilingLog2 hn16 hn32
  split at h
  · cases h
  next hlimit =>
  split at h
  · cases h
  have hlt : ceilingLog2 n < 24 := by
    by_contra hge
    exact hlimit (Nat.pow_le_pow_right (by decide) (Nat.le_of_not_lt hge))
  have hstore : ∀ i, t.entryStore i = ⟨0#32, ops.cleared⟩ := by
    intro i
    rw [← Option.some.inj h]
  have hshift : 8 < t.hashShift ∧ t.hashShift ≤ 28 := by
    rw [← Option.some.inj h]
    change 8 < 32 - ceilingLog2 n ∧ 32 - ceilingLog2 n ≤ 28
    omega
  obtain ⟨htidy, hlive, hsent, hnone⟩ := tidy_free hshift hstore
  have hcounts : t.entryCount = 0 ∧ t.removedCount = 0 := by
    rw [← Option.some.inj h]
    exact ⟨rfl, rfl⟩
  have halpha : t.maxAlphaFrac < 256 ∧ t.minAlphaFrac < 128 := by
    rw [← Option.some.inj h]
    change 192 < 256 ∧ 64 < 128
    decide
  refine ⟨⟨htidy, hcounts.1.trans hlive.symm, hcounts.2.trans hsent.symm, ?_, halpha⟩, hnone⟩
  rw [hcounts.1, hcounts.2]
  exact Nat.two_pow_pos _

/-- A new table is of generation 0. -/
theorem init_generation {capacity : ℕ} {alloc : Bool} (h : init ops capacity alloc = some t) :
    t.generation = 0 := by
  simp only [init] at h
  generalize (if capacity < minSize then minSize else capacity) = n at h
  split at h
  · cases h
  split at h
  · cases h
  rw [← Option.some.inj h]

/-! ### The loop -/

/-- The callback goes over some bodies: how many it saw, which it wanted removed, and its
argument at the end. -/
def visit (etor : β → ℕ → σ → Enumerated σ) : List β → ℕ → σ → ℕ × List β × σ
  | [], i, arg => (i, [], arg)
  | b :: bs, i, arg =>
      let op := etor b i arg
      let (i', removed, arg') := if op.stop then (i + 1, [], op.arg) else
        visit etor bs (i + 1) op.arg
      (i', if op.remove then b :: removed else removed, arg')

/-- The bodies of the live entries at some indices. -/
def bodiesAt (t : DHashTable β) (indices : List ℕ) : List β :=
  (indices.filter fun i => (t.entryStore i).isLive).map fun i => (t.entryStore i).body

/-- The live entries at some indices depend on the entries there only. -/
theorem bodiesAt_congr {indices : List ℕ} (h : ∀ i ∈ indices, t'.entryStore i = t.entryStore i) :
    t'.bodiesAt indices = t.bodiesAt indices := by
  unfold bodiesAt
  have hf : indices.filter (fun i => (t'.entryStore i).isLive) =
      indices.filter fun i => (t.entryStore i).isLive :=
    List.filter_congr fun i hi => by rw [h i hi]
  rw [hf]
  exact List.map_congr_left fun i hi => by rw [h i (List.mem_of_mem_filter hi)]

/-- A raw removal leaves the other entries alone. -/
theorem rawRemove_entryStore (hi : t.cells i = .taken b c) (hj : j ≠ i) :
    (rawRemove ops t i).entryStore j = t.entryStore j := by
  rw [rawRemove_eq hi]
  exact Function.update_of_ne hj _ _

/-- The keys of some bodies. -/
def KeysOf (ops : DHashOps κ β) (removed : List β) (k : κ) : Prop :=
  ∃ r ∈ removed, ops.getKey r = k

/-- What the loop of an enumeration does to the table. -/
structure Looped (ops : DHashOps κ β) (t t' : DHashTable β) (removed : List β) : Prop where
  sound : t'.Sound ops
  stores : ∀ b, t'.Stores b ↔ t.Stores b ∧ ¬KeysOf ops removed (ops.getKey b)
  kept : Kept ops (KeysOf ops removed) t t'

/-- Two stretches of an enumeration, one after the other, remove what both remove. -/
theorem Looped.append {t'' : DHashTable β} {removed removed' : List β}
    (h : Looped ops t t' removed) (h' : Looped ops t' t'' removed') :
    Looped ops t t'' (removed ++ removed') := by
  have hkeys : ∀ k, KeysOf ops (removed ++ removed') k ↔
      KeysOf ops removed k ∨ KeysOf ops removed' k := by
    intro k
    simp [KeysOf, or_and_right, exists_or]
  refine ⟨h'.sound, fun b => ?_, h.kept.trans h'.kept (fun k hk => (hkeys k).2 (.inl hk))
    fun k hk => (hkeys k).2 (.inr hk)⟩
  rw [h'.stores, h.stores, hkeys, not_or, and_assoc]

/-- After the callback has seen an entry: it is removed, or the table is as it was. -/
theorem Sound.seen (h : t.Sound ops) (hi : t.cells i = .taken b c) (remove : Bool)
    {indices : List ℕ} (hnot : i ∉ indices) :
    (if remove then DHashTable.rawRemove ops t i else t).bodiesAt indices =
        t.bodiesAt indices ∧
      Looped ops t (if remove then DHashTable.rawRemove ops t i else t)
        (if remove then [b] else []) := by
  cases remove with
  | true =>
      rw [if_pos rfl, if_pos rfl]
      obtain ⟨hs, hstores, hkept⟩ := h.rawRemove hi
      have hkeys : ∀ k, KeysOf ops [b] k ↔ k = ops.getKey b := by
        intro k
        simp [KeysOf, eq_comm]
      refine ⟨bodiesAt_congr fun j hj => rawRemove_entryStore hi fun e => hnot (e ▸ hj),
        hs, fun b' => ?_, hkept.generation, fun j b' c' hj hne => ?_⟩
      · rw [hstores, hkeys]
      · exact hkept.entry j b' c' hj fun e => hne ((hkeys _).2 e)
  | false =>
      refine ⟨rfl, h, fun b' => ?_, .refl _ _ _⟩
      simp [KeysOf]

/-- **The loop** removes what the callback wants removed, of the entries at the indices. -/
theorem Sound.enumerateLoop (h : t.Sound ops) (indices : List ℕ) (hnodup : indices.Nodup) (i : ℕ)
    (didRemove : Bool) (arg : σ) :
    ∃ t', enumerateLoop ops etor indices i didRemove t arg =
        ((visit etor (t.bodiesAt indices) i arg).1,
          didRemove || !(visit etor (t.bodiesAt indices) i arg).2.1.isEmpty, t',
          (visit etor (t.bodiesAt indices) i arg).2.2) ∧
      Looped ops t t' (visit etor (t.bodiesAt indices) i arg).2.1 := by
  induction indices generalizing t i didRemove arg with
  | nil =>
      refine ⟨t, by simp [DHashTable.enumerateLoop, bodiesAt, visit], h, fun b => ?_, .refl _ _ _⟩
      simp [bodiesAt, visit, KeysOf]
  | cons k ks ih =>
      rw [List.nodup_cons] at hnodup
      unfold DHashTable.enumerateLoop
      by_cases hlive : (t.entryStore k).isLive = true
      · obtain ⟨c, hk⟩ := taken_of_live hlive
        have hbodies : t.bodiesAt (k :: ks) = (t.entryStore k).body :: t.bodiesAt ks := by
          simp only [bodiesAt, List.filter_cons, hlive, if_true, List.map_cons]
        rw [if_pos hlive, hbodies]
        simp only [visit]
        generalize etor (t.entryStore k).body i arg = op
        obtain ⟨hsame, hloop₁⟩ := h.seen hk op.remove hnodup.1
        generalize hrem : (if op.remove then [(t.entryStore k).body] else []) = removed
          at hloop₁
        have hcons : ∀ rest : List β,
            (if op.remove then (t.entryStore k).body :: rest else rest) = removed ++ rest := by
          intro rest
          rw [← hrem]
          split <;> rfl
        have hempty : (didRemove || op.remove) = (didRemove || !removed.isEmpty) := by
          rw [← hrem]
          cases op.remove <;> rfl
        -- the table in which the next entry is looked up
        generalize (if op.remove then DHashTable.rawRemove ops t k else t) = t₁ at hsame hloop₁ ⊢
        rw [hcons, hempty]
        by_cases hstop : op.stop = true
        · rw [if_pos hstop, if_pos hstop, List.append_nil]
          exact ⟨t₁, rfl, hloop₁⟩
        · rw [if_neg hstop, if_neg hstop]
          obtain ⟨t', heq, hloop⟩ := @ih t₁ hloop₁.sound hnodup.2 (i + 1)
            (didRemove || !removed.isEmpty) op.arg
          rw [hsame] at heq hloop
          refine ⟨t', ?_, hloop₁.append hloop⟩
          rw [heq]
          cases removed <;> simp
      · have hbodies : t.bodiesAt (k :: ks) = t.bodiesAt ks := by
          rw [bodiesAt, List.filter_cons_of_neg (by exact hlive)]
          rfl
        rw [if_neg hlive, hbodies]
        exact ih h hnodup.2 i didRemove arg

/-! ### The enumeration -/

/-- The bodies of the table, in the order of its entries. -/
def bodies (t : DHashTable β) : List β := t.bodiesAt (List.range t.size)

/-- The live entries of a tidy table are what it stores. -/
theorem Tidy.mem_bodies (h : t.Tidy ops) (b : β) : b ∈ t.bodies ↔ t.Stores b := by
  unfold bodies bodiesAt
  rw [List.mem_map, h.stores_iff]
  simp only [List.mem_filter, and_assoc]

/-- No key has two entries in a tidy table, so an enumeration meets each once. -/
theorem Tidy.nodup_bodies (h : t.Tidy ops) : (t.bodies.map ops.getKey).Nodup := by
  unfold bodies bodiesAt
  rw [List.map_map]
  refine List.Nodup.map_on (fun i hi j hj hkey => ?_) (List.nodup_range.filter _)
  obtain ⟨c, hc⟩ := taken_of_live (List.mem_filter.1 hi).2
  obtain ⟨d, hd⟩ := taken_of_live (List.mem_filter.1 hj).2
  exact h.probed.unique i j _ _ c d hc hd hkey

/-- **An enumeration** shows the callback every body once, and what it wants removed is
not stored any more. -/
theorem Sound.enumerate (hl : ops.Lawful) (h : t.Sound ops) (etor : β → ℕ → σ → Enumerated σ)
    (arg : σ) (alloc : Bool) :
    ∃ t', enumerate ops t etor arg alloc =
        some ((visit etor t.bodies 0 arg).1, t', (visit etor t.bodies 0 arg).2.2) ∧
      t'.Sound ops ∧
      (∀ b, t'.Stores b ↔
        t.Stores b ∧ ¬KeysOf ops (visit etor t.bodies 0 arg).2.1 (ops.getKey b)) ∧
      (Kept ops (KeysOf ops (visit etor t.bodies 0 arg).2.1) t t' ∨
        t'.generation = increment t.generation) := by
  obtain ⟨t₁, heq, hloop⟩ := @Sound.enumerateLoop κ β σ ops t etor h (List.range t.size)
    List.nodup_range 0 false arg
  change _ = ((visit etor t.bodies 0 arg).1, _, t₁, (visit etor t.bodies 0 arg).2.2) at heq
  have hs := hloop.sound
  simp only [DHashTable.enumerate, heq]
  split
  · -- the new size
    have hroom := hs.room
    have hsize := size_le hs.shift
    have hcap : ∃ n, (if t₁.entryCount + t₁.entryCount >>> 1 < minSize then minSize else
        t₁.entryCount + t₁.entryCount >>> 1) = n ∧ 16 ≤ n ∧ n < 2 ^ 32 ∧ t₁.entryCount < n := by
      refine ⟨_, rfl, ?_⟩
      rw [Nat.shiftRight_eq_div_pow, minSize]
      split <;> omega
    obtain ⟨n, hn, hn16, hn32, hlt⟩ := hcap
    rw [hn]
    have hpos : n ≠ 0 := by omega
    have hle := le_two_pow_ceilingLog2 hpos hn32
    obtain ⟨changed, t', heq', hch⟩ := hs.changeTable hl
      ((ceilingLog2 n : ℤ) - (bits - t₁.hashShift : ℕ)) (ceilingLog2 n) (by omega)
      (four_le_ceilingLog2 hn16 hn32) (Nat.lt_of_lt_of_le hlt hle) alloc
    rw [heq']
    refine ⟨t', rfl, hch.sound, fun b => (hch.stores b).trans (hloop.stores b), ?_⟩
    rw [← hloop.kept.generation]
    cases changed with
    | true => exact .inr (hch.fresh rfl).2.2
    | false =>
        rw [(hch.same rfl).1]
        exact .inl hloop.kept
  · exact ⟨t₁, rfl, hs, hloop.stores, .inl hloop.kept⟩

end DHashTable

end ProntoScript
