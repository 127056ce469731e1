/-
# Memory from `malloc`

A memory of cells that are handed out in blocks.  A cell that is in no block cannot be
touched, and a cell that nothing was stored in yet cannot be loaded: `load`, `store`,
`copy` and `free` answer `none` where the program would be in error, so that a program
whose every step answers `some` never reaches freed or uninitialised memory and never
frees twice.  Where a block lies is not the memory's choice but an argument, and
`Mem.Fits` says which choices there are.

`Mem.Holds a n xs` says that the block at `a` has `n` cells of which the first hold `xs`.
It is kept by whatever is done to the other blocks (`Holds.frame`), and the lemmas on the
operations are about nothing else.
-/

import Mathlib.Data.List.Basic
import Mathlib.Tactic.SplitIfs

namespace HeapBlocks

/-- A memory: what is in each cell of a block, and the sizes of the blocks by address. -/
structure Mem (α : Type*) where
  cell : ℕ → Option (Option α)
  block : ℕ → Option ℕ

variable {α : Type*} {m m' : Mem α} {a b n k : ℕ} {xs ys : List α}

namespace Mem

/-- The memory without blocks. -/
def empty : Mem α := ⟨fun _ => none, fun _ => none⟩

/-- What is in a cell. -/
def load (m : Mem α) (a : ℕ) : Option α := (m.cell a).join

/-- What is in the cells from an address on. -/
def loads (m : Mem α) (a : ℕ) : ℕ → Option (List α)
  | 0 => some []
  | n + 1 => do
      let x ← m.load a
      let xs ← m.loads (a + 1) n
      some (x :: xs)

/-- The cells from `a` on with new contents. -/
def put (m : Mem α) (a : ℕ) (xs : List α) : Mem α :=
  { m with cell := fun x => if a ≤ x ∧ x < a + xs.length then some xs[x - a]? else m.cell x }

/-- Store into the cells from an address on. -/
def stores (m : Mem α) (a : ℕ) (xs : List α) : Option (Mem α) :=
  if ∀ i < xs.length, (m.cell (a + i)).isSome then some (m.put a xs) else none

/-- `memcpy`. -/
def copy (m : Mem α) (dst src n : ℕ) : Option (Mem α) := do
  let xs ← m.loads src n
  m.stores dst xs

/-- There is room for a block of `n` cells at `a`, below `limit`. -/
def Fits (m : Mem α) (limit a n : ℕ) : Prop :=
  0 < a ∧ 0 < n ∧ a + n ≤ limit ∧ ∀ i < n, (m.cell (a + i)).isNone

instance (m : Mem α) (limit a n : ℕ) : Decidable (m.Fits limit a n) :=
  inferInstanceAs (Decidable (_ ∧ _))

/-- A new block, its cells not yet initialised. -/
def claim (m : Mem α) (a n : ℕ) : Mem α :=
  ⟨fun x => if a ≤ x ∧ x < a + n then some none else m.cell x,
    fun x => if x = a then some n else m.block x⟩

/-- The memory without the block of `n` cells at `a`. -/
def drop (m : Mem α) (a n : ℕ) : Mem α :=
  ⟨fun x => if a ≤ x ∧ x < a + n then none else m.cell x,
    fun x => if x = a then none else m.block x⟩

/-- `free`. -/
def free (m : Mem α) (a : ℕ) : Option (Mem α) := (m.block a).map (m.drop a)

/-- `malloc`, with where the block is to lie.  A place where it does not fit counts as
`NULL`. -/
def malloc (m : Mem α) (limit : ℕ) (answer : Option ℕ) (n : ℕ) : Option (Mem α × ℕ) :=
  (answer.filter fun a => decide (m.Fits limit a n)).map fun a => (m.claim a n, a)

/-- A block of `n` cells at `a'` with what the `k` cells from `a` on were. -/
def moved (m : Mem α) (a k a' n : ℕ) : Mem α :=
  let r := (m.drop a k).claim a' n
  { r with cell := fun x => if a' ≤ x ∧ x < a' + min k n then m.cell (a + (x - a')) else r.cell x }

/-- `realloc`, with where the block is to lie, which may be where it was.  The outer answer
is `none` for an address that is no block's, the inner one for `NULL`. -/
def realloc (m : Mem α) (limit a : ℕ) (answer : Option ℕ) (n : ℕ) :
    Option (Option (Mem α × ℕ)) :=
  (m.block a).map fun k =>
    (answer.filter fun a' => decide ((m.drop a k).Fits limit a' n)).map fun a' =>
      (m.moved a k a' n, a')

/-- Blocks are not empty, do not start at `NULL` and are apart, and the cells are those of
the blocks. -/
structure WF (m : Mem α) : Prop where
  pos : ∀ a n, m.block a = some n → 0 < a ∧ 0 < n
  apart : ∀ a n b k, m.block a = some n → m.block b = some k → a ≠ b → a + n ≤ b ∨ b + k ≤ a
  cells : ∀ x, (m.cell x).isSome ↔ ∃ a n, m.block a = some n ∧ a ≤ x ∧ x < a + n

/-- The block at `a` has `n` cells, of which the first hold `xs`. -/
structure Holds (m : Mem α) (a n : ℕ) (xs : List α) : Prop where
  block : m.block a = some n
  length_le : xs.length ≤ n
  cell : ∀ i (h : i < xs.length), m.cell (a + i) = some (some xs[i])

/-! ### What the operations do -/

/-- A memory without blocks is well formed. -/
theorem wf_empty : (empty : Mem α).WF where
  pos a n h := by simp [empty] at h
  apart a n b k h := by simp [empty] at h
  cells x := by simp [empty]

/-- A block keeps what it holds where its cells are left alone. -/
theorem Holds.frame (h : m.Holds a n xs) (hb : m'.block a = some n)
    (hc : ∀ x, a ≤ x → x < a + n → m'.cell x = m.cell x) : m'.Holds a n xs where
  block := hb
  length_le := h.length_le
  cell i hi := by
    have hle := h.length_le
    rw [hc _ (by omega) (by omega), h.cell i hi]

/-- A block that holds a list holds what it begins with. -/
theorem Holds.front (h : m.Holds a n (xs ++ ys)) : m.Holds a n xs where
  block := h.block
  length_le := by have := h.length_le; simp at this; omega
  cell i hi := by
    rw [h.cell i (by simp; omega), List.getElem_append_left hi]

/-- What a block holds is there to be loaded. -/
theorem Holds.loads (h : m.Holds a n xs) {i j : ℕ} (hij : i + j ≤ xs.length) :
    m.loads (a + i) j = some ((xs.drop i).take j) := by
  induction j generalizing i with
  | zero => simp [Mem.loads]
  | succ j ih =>
      have hi : i < xs.length := by omega
      have hl : m.load (a + i) = some xs[i] := by simp [load, h.cell i hi]
      have hrest := ih (i := i + 1) (by omega)
      rw [← Nat.add_assoc] at hrest
      rw [Mem.loads, hl, hrest, List.drop_eq_getElem_cons hi]
      rfl

/-- Every cell of a block is there. -/
theorem WF.isSome_of_block (hw : m.WF) (h : m.block a = some n) {x : ℕ} (h₁ : a ≤ x)
    (h₂ : x < a + n) : (m.cell x).isSome :=
  (hw.cells x).2 ⟨a, n, h, h₁, h₂⟩

/-- A cell of one block is in no other. -/
theorem WF.not_mem_of_ne (hw : m.WF) (ha : m.block a = some n) (hb : m.block b = some k)
    (hne : a ≠ b) {x : ℕ} (h₁ : a ≤ x) (h₂ : x < a + n) : ¬(b ≤ x ∧ x < b + k) := by
  have := hw.apart a n b k ha hb hne
  omega

/-! ### Stores -/

/-- Storing into a block succeeds. -/
theorem stores_eq (hw : m.WF) (h : m.block a = some n) {i : ℕ} (hi : i + xs.length ≤ n) :
    m.stores (a + i) xs = some (m.put (a + i) xs) := by
  unfold stores
  rw [if_pos]
  intro j hj
  exact hw.isSome_of_block h (by omega) (by omega)

/-- Writing within a block keeps the memory well formed. -/
theorem WF.put (hw : m.WF) (h : m.block a = some n) {i : ℕ} (hi : i + xs.length ≤ n) :
    (m.put (a + i) xs).WF where
  pos := hw.pos
  apart := hw.apart
  cells x := by
    refine Iff.trans ?_ (hw.cells x)
    simp only [Mem.put]
    split_ifs with hx
    · have := hw.isSome_of_block h (x := x) (by omega) (by omega)
      simp [this]
    · rfl

/-- A block that begins with `xs` goes on with what is stored behind it. -/
theorem Holds.put (h : m.Holds a n xs) (hle : xs.length + ys.length ≤ n) :
    (m.put (a + xs.length) ys).Holds a n (xs ++ ys) where
  block := h.block
  length_le := by simpa using hle
  cell i hi := by
    simp only [Mem.put]
    simp only [List.length_append] at hi
    by_cases hx : i < xs.length
    · rw [if_neg (by omega), h.cell i hx, List.getElem_append_left hx]
    · rw [if_pos (by omega), List.getElem_append_right (by omega),
        show a + i - (a + xs.length) = i - xs.length by omega,
        List.getElem?_eq_getElem (by omega)]

/-- What a block holds in front of what is stored stays. -/
theorem Holds.put_behind (h : m.Holds a n xs) {i : ℕ} (hi : xs.length ≤ i) :
    (m.put (a + i) ys).Holds a n xs where
  block := h.block
  length_le := h.length_le
  cell j hj := by
    simp only [Mem.put]
    rw [if_neg (by omega), h.cell j hj]

/-- The blocks that are not stored into keep what they hold. -/
theorem Holds.put_of_ne (hw : m.WF) (h : m.Holds b k ys) (ha : m.block a = some n)
    (hne : a ≠ b) {i : ℕ} (hi : i + xs.length ≤ n) : (m.put (a + i) xs).Holds b k ys := by
  refine h.frame h.block fun x h₁ h₂ => ?_
  have := hw.not_mem_of_ne h.block ha hne.symm h₁ h₂
  simp only [Mem.put]
  rw [if_neg (by omega)]

/-- Copying into a block succeeds, and is a store. -/
theorem Holds.copy_eq (hw : m.WF) (h : m.Holds b k ys) {i j l : ℕ} (hij : i + j ≤ ys.length)
    (ha : m.block a = some n) (hl : l + j ≤ n) :
    m.copy (a + l) (b + i) j = some (m.put (a + l) ((ys.drop i).take j)) := by
  have hlen : ((ys.drop i).take j).length = j := by simp; omega
  rw [copy, h.loads hij]
  exact stores_eq hw ha (by omega)

/-! ### New blocks, and blocks given back -/

/-- Where a new block fits there is no cell of another. -/
theorem Fits.not_mem (hw : m.WF) {limit : ℕ} (hf : m.Fits limit a n) (hb : m.block b = some k)
    {x : ℕ} (h₁ : b ≤ x) (h₂ : x < b + k) : ¬(a ≤ x ∧ x < a + n) := by
  intro hx
  have hs := hw.isSome_of_block hb h₁ h₂
  have hn := hf.2.2.2 (x - a) (by omega)
  rw [show a + (x - a) = x by omega] at hn
  simp [Option.isSome_iff_ne_none, Option.isNone_iff_eq_none] at hs hn
  exact hs hn

/-- Where a new block fits no block begins. -/
theorem Fits.block_eq_none (hw : m.WF) {limit : ℕ} (hf : m.Fits limit a n) : m.block a = none := by
  cases hb : m.block a with
  | none => rfl
  | some k =>
      have := hw.pos a k hb
      exact absurd ⟨Nat.le_refl a, Nat.lt_add_of_pos_right hf.2.1⟩
        (hf.not_mem hw hb (Nat.le_refl a) (Nat.lt_add_of_pos_right this.2))

/-- A block that fits lies before or behind every other. -/
theorem Fits.apart (hw : m.WF) {limit : ℕ} (hf : m.Fits limit a n) (hb : m.block b = some k) :
    a + n ≤ b ∨ b + k ≤ a := by
  have hpos := (hw.pos b k hb).2
  have hn := hf.2.1
  by_contra hc
  have h₁ := hf.not_mem hw hb (x := b) (by omega) (by omega)
  have h₂ := hf.not_mem hw hb (x := a) (by omega)
  omega

/-- A block that fits may be claimed. -/
theorem WF.claim (hw : m.WF) {limit : ℕ} (hf : m.Fits limit a n) : (m.claim a n).WF where
  pos x k h := by
    simp only [Mem.claim] at h
    split_ifs at h with hx
    · obtain rfl := Option.some.inj h
      exact ⟨hx ▸ hf.1, hf.2.1⟩
    · exact hw.pos x k h
  apart x k y l hx hy hne := by
    simp only [Mem.claim] at hx hy
    split_ifs at hx hy with h₁ h₂ h₂
    · omega
    · obtain rfl := Option.some.inj hx
      exact h₁ ▸ hf.apart hw hy
    · obtain rfl := Option.some.inj hy
      exact h₂ ▸ (hf.apart hw hx).symm
    · exact hw.apart x k y l hx hy hne
  cells x := by
    simp only [Mem.claim]
    constructor
    · intro hx
      split_ifs at hx with h
      · exact ⟨a, n, by simp, h⟩
      · obtain ⟨b, k, hb, h₁, h₂⟩ := (hw.cells x).1 hx
        have hne : b ≠ a := fun e => by simp [e, hf.block_eq_none hw] at hb
        exact ⟨b, k, by rw [if_neg hne, hb], h₁, h₂⟩
    · rintro ⟨b, k, hb, h₁, h₂⟩
      split_ifs at hb with hba
      · obtain rfl := Option.some.inj hb
        rw [if_pos (by omega)]
        rfl
      · rw [if_neg (hf.not_mem hw hb h₁ h₂)]
        exact hw.isSome_of_block hb h₁ h₂

/-- A claimed block does not touch what the others hold. -/
theorem Holds.claim (hw : m.WF) {limit : ℕ} (hf : m.Fits limit a n) (h : m.Holds b k xs) :
    (m.claim a n).Holds b k xs := by
  have hne : b ≠ a := fun e => by simpa [e, hf.block_eq_none hw] using h.block
  refine h.frame (by simp [Mem.claim, hne, h.block]) fun x h₁ h₂ => ?_
  simp only [Mem.claim]
  rw [if_neg (hf.not_mem hw h.block h₁ h₂)]

/-- A new block holds nothing yet. -/
theorem holds_claim : (m.claim a n).Holds a n [] where
  block := by simp [Mem.claim]
  length_le := by simp
  cell i h := by simp at h

/-- Blocks may be dropped. -/
theorem WF.drop (hw : m.WF) (h : m.block a = some n) : (m.drop a n).WF where
  pos x k hx := by
    simp only [Mem.drop] at hx
    split_ifs at hx
    exact hw.pos x k hx
  apart x k y l hx hy hne := by
    simp only [Mem.drop] at hx hy
    split_ifs at hx hy
    exact hw.apart x k y l hx hy hne
  cells x := by
    simp only [Mem.drop]
    constructor
    · intro hx
      split_ifs at hx with hxa
      · simp at hx
      · obtain ⟨b, k, hb, h₁, h₂⟩ := (hw.cells x).1 hx
        have hne : b ≠ a := by
          rintro rfl
          rw [hb] at h
          obtain rfl := Option.some.inj h
          omega
        exact ⟨b, k, by rw [if_neg hne, hb], h₁, h₂⟩
    · rintro ⟨b, k, hb, h₁, h₂⟩
      split_ifs at hb with hba
      rw [if_neg (hw.not_mem_of_ne hb h hba h₁ h₂)]
      exact hw.isSome_of_block hb h₁ h₂

/-- A dropped block does not touch what the others hold. -/
theorem Holds.drop (hw : m.WF) (h : m.Holds b k xs) (ha : m.block a = some n) (hne : b ≠ a) :
    (m.drop a n).Holds b k xs := by
  refine h.frame (by simp [Mem.drop, hne, h.block]) fun x h₁ h₂ => ?_
  simp only [Mem.drop]
  rw [if_neg (hw.not_mem_of_ne h.block ha hne h₁ h₂)]

/-- The blocks behind a `realloc` that moved one. -/
theorem moved_block (k a' : ℕ) (x : ℕ) :
    (m.moved a k a' n).block x = if x = a' then some n else if x = a then none else m.block x := rfl

/-- A block may be moved to where it fits once it is gone from where it was. -/
theorem WF.moved (hw : m.WF) {limit a' : ℕ} (h : m.block a = some k)
    (hf : (m.drop a k).Fits limit a' n) : (m.moved a k a' n).WF where
  pos := ((hw.drop h).claim hf).pos
  apart := ((hw.drop h).claim hf).apart
  cells x := by
    have hc := ((hw.drop h).claim hf).cells x
    refine Iff.trans ?_ hc
    simp only [Mem.moved]
    split_ifs with hx
    · have h₁ := hw.isSome_of_block h (x := a + (x - a')) (by omega) (by omega)
      simp only [h₁, true_iff, Mem.claim]
      rw [if_pos (by omega)]
      rfl
    · rfl

/-- A block that is reallocated holds what it did, as far as it fits. -/
theorem Holds.moved {a' : ℕ} (h : m.Holds a k xs) (hle : xs.length ≤ n) :
    (m.moved a k a' n).Holds a' n xs where
  block := by simp [moved_block]
  length_le := hle
  cell i hi := by
    have := h.length_le
    simp only [Mem.moved]
    rw [if_pos (by omega), show a + (a' + i - a') = a + i by omega, h.cell i hi]

/-- A block that moves does not touch what the others hold. -/
theorem Holds.moved_of_ne (hw : m.WF) {limit a' : ℕ} (h : m.block a = some k)
    (hf : (m.drop a k).Fits limit a' n) {l : ℕ} (hb : m.Holds b l xs) (hne : b ≠ a) :
    (m.moved a k a' n).Holds b l xs := by
  have hd := hb.drop hw h hne
  have hc := hd.claim (hw.drop h) hf
  refine hc.frame hc.block fun x h₁ h₂ => ?_
  have := hf.not_mem (hw.drop h) hd.block h₁ h₂
  simp only [Mem.moved]
  rw [if_neg (by omega)]

/-- `malloc` answers `NULL`, or a block where there was room. -/
theorem malloc_cases (m : Mem α) (limit : ℕ) (answer : Option ℕ) (n : ℕ) :
    m.malloc limit answer n = none ∨
      ∃ a, m.Fits limit a n ∧ m.malloc limit answer n = some (m.claim a n, a) := by
  unfold malloc
  cases hx : answer.filter fun a => decide (m.Fits limit a n) with
  | none => exact .inl rfl
  | some a =>
      have := (Option.filter_eq_some_iff.1 hx).2
      exact .inr ⟨a, by simpa using this, rfl⟩

/-- `realloc` of a block answers `NULL`, or moves it to where there is room. -/
theorem realloc_cases (h : m.block a = some k) (limit : ℕ) (answer : Option ℕ) (n : ℕ) :
    m.realloc limit a answer n = some none ∨
      ∃ a', (m.drop a k).Fits limit a' n ∧
        m.realloc limit a answer n = some (some (m.moved a k a' n, a')) := by
  unfold realloc
  rw [h]
  cases hx : answer.filter fun a' => decide ((m.drop a k).Fits limit a' n) with
  | none => exact .inl (by simp [hx])
  | some a' =>
      have := (Option.filter_eq_some_iff.1 hx).2
      exact .inr ⟨a', by simpa using this, by simp [hx]⟩

/-- `free` of a block drops it. -/
theorem free_eq (h : m.block a = some n) : m.free a = some (m.drop a n) := by
  simp [free, h]

end Mem

end HeapBlocks
