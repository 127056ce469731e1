/-
# The entries that a search comes to

What `HASH1`, `HASH2` and the mask come to in numbers: the search for a key starts at an
entry of the table and goes down by an odd number of entries modulo the size of the table,
which is a power of two.  So it comes to every entry within as many steps as there are
entries (`exists_probeHash`).

The lowest bit of a key hash is the collision flag.  It makes no difference to what is live
and to which key hash an entry matches.
-/

import ProntoScript.Hashing.DHash
import ProntoScript.Foundation.Probing
import Mathlib.Data.Nat.Bitwise
import Mathlib.Algebra.Order.Group.Nat
import Mathlib.Data.Nat.Prime.Basic

namespace ProntoScript

namespace DHash

variable {k : DHashNumber} {shift n : ℕ}

/-! ### The collision flag -/

/-- The collision flag of a word is its lowest bit. -/
theorem toNat_and_flag (k : DHashNumber) : (k &&& collisionFlag).toNat = k.toNat % 2 := by
  rw [BitVec.toNat_and]
  exact Nat.and_one_is_mod _

/-- Setting the flag makes a word the odd one of its pair. -/
theorem toNat_flagged (k : DHashNumber) :
    (k ||| collisionFlag).toNat = k.toNat / 2 * 2 + 1 := by
  have h : k ||| collisionFlag = ((k >>> 1) <<< 1) + 1#32 := by
    rw [BitVec.add_eq_or_of_and_eq_zero]
    · ext i hi
      rw [BitVec.getElem_or, BitVec.getElem_or, collisionFlag, BitVec.getElem_one]
      cases i with
      | zero => simp
      | succ i => simp [← BitVec.getLsbD_eq_getElem, Nat.add_comm 1 i, hi]
    · ext i hi
      cases i <;> simp
  rw [h, BitVec.toNat_add, BitVec.toNat_shiftLeft, BitVec.toNat_ushiftRight, Nat.shiftLeft_eq,
    Nat.shiftRight_eq_div_pow, BitVec.toNat_ofNat]
  omega

/-- Clearing the flag makes it the even one. -/
theorem toNat_unflagged (k : DHashNumber) :
    (k &&& ~~~collisionFlag).toNat = k.toNat / 2 * 2 := by
  have h : k &&& ~~~collisionFlag = (k >>> 1) <<< 1 := by
    ext i hi
    rw [BitVec.getElem_and, BitVec.getElem_not, collisionFlag, BitVec.getElem_one]
    cases i with
      | zero => simp
      | succ i => simp [← BitVec.getLsbD_eq_getElem, Nat.add_comm 1 i, hi]
  rw [h, BitVec.toNat_shiftLeft, BitVec.toNat_ushiftRight, Nat.shiftLeft_eq,
    Nat.shiftRight_eq_div_pow]
  omega

/-- A flag that is set does not change the hash. -/
theorem unflagged_flagged (k : DHashNumber) :
    (k ||| collisionFlag) &&& ~~~collisionFlag = k &&& ~~~collisionFlag := by
  apply BitVec.eq_of_toNat_eq
  rw [toNat_unflagged, toNat_unflagged, toNat_flagged]
  omega

/-- A flag is cleared once. -/
theorem unflagged_unflagged (k : DHashNumber) :
    (k &&& ~~~collisionFlag) &&& ~~~collisionFlag = k &&& ~~~collisionFlag := by
  rw [BitVec.and_assoc, BitVec.and_self]

/-- Live key hashes are those with more than the flag. -/
theorem two_le_iff : 2#32 ≤ k ↔ k &&& ~~~collisionFlag ≠ 0#32 := by
  rw [ne_eq, ← BitVec.toNat_inj, toNat_unflagged, BitVec.le_def, BitVec.toNat_ofNat,
    BitVec.toNat_ofNat]
  omega

/-! ### Sums of words -/

/-- `JS_BITMASK(n)` has the `n` low bits. -/
theorem toNat_bitMask (hn : n < 32) : (bitMask n).toNat = 2 ^ n - 1 := by
  have hlt : 2 ^ n < 2 ^ 32 := Nat.pow_lt_pow_right (by decide) hn
  have hpos : 0 < 2 ^ n := Nat.two_pow_pos n
  rw [bitMask, BitVec.toNat_sub, BitVec.toNat_shiftLeft, Nat.shiftLeft_eq, BitVec.toNat_ofNat]
  have h1 : 1 % 2 ^ 32 * 2 ^ n = 2 ^ n := by omega
  rw [h1, Nat.mod_eq_of_lt hlt]
  omega

/-- One step of a probe sequence: the second hash is subtracted, modulo the size. -/
theorem toNat_nextHash (a b : DHashNumber) (hn : n < 32) :
    (nextHash a b (bitMask n)).toNat = (a.toNat + (2 ^ 32 - b.toNat)) % 2 ^ n := by
  rw [nextHash, BitVec.toNat_and, toNat_bitMask hn, Nat.and_two_pow_sub_one_eq_mod,
    BitVec.toNat_sub, Nat.add_comm (2 ^ 32 - b.toNat),
    Nat.mod_mod_of_dvd _ (Nat.pow_dvd_pow 2 (Nat.le_of_lt hn))]

/-- The first hash is an index of the table. -/
theorem hash1_lt (k : DHashNumber) (hs : shift ≤ 32) :
    (hash1 k shift).toNat < 2 ^ (bits - shift) := by
  rw [hash1, BitVec.toNat_ushiftRight, Nat.shiftRight_eq_div_pow]
  refine Nat.div_lt_of_lt_mul ?_
  rw [← Nat.pow_add]
  have he : shift + (bits - shift) = 32 := by
    unfold bits
    omega
  rw [he]
  exact k.isLt

/-- The second hash is odd, so that its steps reach every entry of a table whose size is a
power of two. -/
theorem hash2_odd (k : DHashNumber) (log2 : ℕ) : (hash2 k log2 shift).toNat % 2 = 1 := by
  have h := toNat_flagged ((k <<< log2) >>> shift)
  rw [collisionFlag] at h
  rw [hash2, h]
  omega

/-! ### The path of a key hash -/

/-- Where the search for a key hash looks at a step. -/
def probeHash (keyHash : DHashNumber) (shift : ℕ) : ℕ → DHashNumber
  | 0 => hash1 keyHash shift
  | n + 1 => nextHash (probeHash keyHash shift n) (hash2 keyHash (bits - shift) shift)
      (bitMask (bits - shift))

/-- The `n`th index of a probe sequence, as a number. -/
theorem toNat_probeHash (hs : 0 < shift) (hs' : shift ≤ 32) (n : ℕ) :
    (probeHash k shift n).toNat =
      ((hash1 k shift).toNat + n * (2 ^ 32 - (hash2 k (bits - shift) shift).toNat)) %
        2 ^ (bits - shift) := by
  induction n with
  | zero =>
      rw [Nat.zero_mul, Nat.add_zero, Nat.mod_eq_of_lt (hash1_lt k hs')]
      rfl
  | succ n ih =>
      have hlt : bits - shift < 32 := by
        unfold bits
        omega
      rw [probeHash, toNat_nextHash _ _ hlt, ih, Nat.mod_add_mod, Nat.succ_mul, Nat.add_assoc]

/-- Every probe is an index of the table. -/
theorem probeHash_lt (hs : 0 < shift) (hs' : shift ≤ 32) (n : ℕ) :
    (probeHash k shift n).toNat < 2 ^ (bits - shift) := by
  rw [toNat_probeHash hs hs']
  exact Nat.mod_lt _ (Nat.two_pow_pos _)

/-- **A search comes to every entry.** -/
theorem exists_probeHash (k : DHashNumber) (hs : 0 < shift) (hs' : shift < 32) {i : ℕ}
    (hi : i < 2 ^ (bits - shift)) :
    ∃ n < 2 ^ (bits - shift), (probeHash k shift n).toNat = i := by
  have hlog : bits - shift ≠ 0 := by
    unfold bits
    omega
  have hodd := @hash2_odd shift k (bits - shift)
  have hlt := (hash2 k (bits - shift) shift).isLt
  have hcop : Nat.Coprime (2 ^ 32 - (hash2 k (bits - shift) shift).toNat)
      (2 ^ (bits - shift)) := by
    refine Nat.Coprime.pow_right _ ?_
    rw [Nat.coprime_two_right, Nat.odd_iff]
    omega
  obtain ⟨n, hn, he⟩ := Probing.exists_stride (Nat.one_lt_two_pow hlog) hcop
    (hash1 k shift).toNat hi
  refine ⟨n, hn, ?_⟩
  rw [toNat_probeHash hs (Nat.le_of_lt hs')]
  exact he

end DHash

end ProntoScript
