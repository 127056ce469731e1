/-
# What a string denotes

`StrHeap.Denotes h d s v`: in the heap `h`, the string `s` is the characters `v`, which
are found `d` bases away.  A flat string denotes what its buffer holds, a dependent one a
stretch of what its base denotes.  Because the relation is inductive, a string that denotes
anything has no circle of bases; because a dependent string must be `isMutable` for the
collector to follow its base, the relation asks for that too.

A heap may be changed a great deal without any string changing its value.  All such
changes are instances of `Denotes.transfer`: where the strings outside a set are the
same words over the same characters, and those inside it denote what they did, so does
every other one.
-/

import ProntoScript.Strings.Heap
import Mathlib.Data.Fintype.Card
import Mathlib.Data.Nat.Bitwise
import Mathlib.Tactic.ByContra

namespace ProntoScript

open HeapBlocks

variable {w : ℕ}

/-! ### Words -/

/-- The length word of a dependent string, its start and its length. -/
inductive DepWord (w : ℕ) : ℕ → ℕ → ℕ → Prop
  | front {n : ℕ} : n < 2 ^ (2 * w) → DepWord w (prefixLength w n) 0 n
  | sub {k n : ℕ} : 0 < k → k < 2 ^ w → n < 2 ^ w → DepWord w (startAndLength w k n) k n

/-- `JSSTRFLAG_DEPENDENT` asks for the second bit from the top. -/
theorem and_strflagDependent (n : ℕ) :
    (n &&& strflagDependent w ≠ 0) ↔ n.testBit (2 * w) = true := by
  rw [strflagDependent, Nat.one_shiftLeft, Nat.and_two_pow]
  cases n.testBit (2 * w) <;> simp

/-- `JSSTRFLAG_PREFIX` asks for the bit beside it. -/
theorem and_strflagPrefix (n : ℕ) :
    (n &&& strflagPrefix w ≠ 0) ↔ n.testBit (2 * w + 1) = true := by
  rw [strflagPrefix, show 2 <<< (2 * w) = 2 ^ (2 * w + 1) by
    rw [Nat.shiftLeft_eq, Nat.pow_succ, Nat.mul_comm], Nat.and_two_pow]
  cases n.testBit (2 * w + 1) <;> simp

/-- The one bit of the flag. -/
theorem testBit_strflagDependent (i : ℕ) :
    (strflagDependent w).testBit i = decide (2 * w = i) := by
  rw [strflagDependent, Nat.one_shiftLeft, Nat.testBit_two_pow]

/-- The one bit of the flag. -/
theorem testBit_strflagPrefix (i : ℕ) :
    (strflagPrefix w).testBit i = decide (2 * w + 1 = i) := by
  rw [strflagPrefix, show 2 <<< (2 * w) = 2 ^ (2 * w + 1) by
    rw [Nat.shiftLeft_eq, Nat.pow_succ, Nat.mul_comm], Nat.testBit_two_pow]

/-- A number has no bits beyond its size. -/
theorem testBit_of_lt {n k i : ℕ} (h : n < 2 ^ k) (hi : k ≤ i) : n.testBit i = false :=
  Nat.testBit_lt_two_pow (Nat.lt_of_lt_of_le h (Nat.pow_le_pow_right (by omega) hi))

/-- A length that leaves room for the flags is that of a flat string. -/
theorem not_isDependent {t : StrThing} (h : t.length < 2 ^ (2 * w)) : t.isDependent w = false := by
  simp only [StrThing.isDependent, and_strflagDependent, testBit_of_lt h (Nat.le_refl _)]
  rfl

/-- `JSPREFIX_SET_LENGTH` sets both flags and keeps the length. -/
theorem prefixLength_bits {n : ℕ} (h : n < 2 ^ (2 * w)) :
    (prefixLength w n).testBit (2 * w) = true ∧ (prefixLength w n).testBit (2 * w + 1) = true ∧
      prefixLength w n &&& stringLengthMask w = n := by
  refine ⟨?_, ?_, Nat.eq_of_testBit_eq fun i => ?_⟩
  · simp [prefixLength, testBit_strflagDependent]
  · simp [prefixLength, testBit_strflagPrefix]
  · simp only [prefixLength, stringLengthMask, Nat.testBit_and, Nat.testBit_or,
      testBit_strflagDependent, testBit_strflagPrefix, Nat.testBit_two_pow_sub_one]
    by_cases hi : i < 2 * w
    · have h₁ : 2 * w ≠ i := by omega
      have h₂ : 2 * w + 1 ≠ i := by omega
      simp [hi, h₁, h₂]
    · simp [hi, testBit_of_lt h (by omega : 2 * w ≤ i)]

/-- `JSSTRDEP_SET_START_AND_LENGTH` sets one flag and keeps both numbers, each in half of
what is left. -/
theorem startAndLength_bits {k n : ℕ} (hk : k < 2 ^ w) (hn : n < 2 ^ w) :
    (startAndLength w k n).testBit (2 * w) = true ∧
      (startAndLength w k n).testBit (2 * w + 1) = false ∧
      startAndLength w k n >>> w &&& strdepMask w = k ∧
      startAndLength w k n &&& strdepMask w = n := by
  have hb : ∀ i, (startAndLength w k n).testBit i =
      (decide (2 * w = i) || (decide (i ≥ w) && k.testBit (i - w)) || n.testBit i) := fun i => by
    simp only [startAndLength, Nat.testBit_or, testBit_strflagDependent, Nat.testBit_shiftLeft]
  refine ⟨by simp [hb], ?_, Nat.eq_of_testBit_eq fun i => ?_, Nat.eq_of_testBit_eq fun i => ?_⟩
  · rw [hb, testBit_of_lt hk (by omega), testBit_of_lt hn (by omega)]
    simp
  · rw [Nat.testBit_and, Nat.testBit_shiftRight, hb, strdepMask, Nat.testBit_two_pow_sub_one,
      testBit_of_lt hn (by omega), Nat.add_sub_cancel_left]
    by_cases hi : i < w
    · have h₁ : 2 * w ≠ w + i := by omega
      simp [hi, h₁]
    · simp [hi, testBit_of_lt hk (by omega : w ≤ i)]
  · rw [Nat.testBit_and, hb, strdepMask, Nat.testBit_two_pow_sub_one]
    by_cases hi : i < w
    · have h₁ : 2 * w ≠ i := by omega
      have h₂ : ¬w ≤ i := by omega
      simp [hi, h₁, h₂]
    · simp [hi, testBit_of_lt hn (by omega : w ≤ i)]

/-- What the bits of a dependent string's word say. -/
theorem DepWord.decode {x k n : ℕ} (h : DepWord w x k n) :
    x.testBit (2 * w) = true ∧ x.testBit (2 * w + 1) = decide (k = 0) ∧
      (k = 0 → x &&& stringLengthMask w = n) ∧
      (0 < k → x >>> w &&& strdepMask w = k ∧ x &&& strdepMask w = n ∧ k < 2 ^ w ∧ n < 2 ^ w) := by
  cases h with
  | front hn =>
      obtain ⟨h₁, h₂, h₃⟩ := prefixLength_bits hn
      exact ⟨h₁, by simpa using h₂, fun _ => h₃, fun h => by omega⟩
  | sub h₀ hk hn =>
      obtain ⟨h₁, h₂, h₃, h₄⟩ := startAndLength_bits hk hn
      exact ⟨h₁, by rw [h₂, decide_eq_false (by omega)], fun h => by omega,
        fun _ => ⟨h₃, h₄, hk, hn⟩⟩

section

variable {t : StrThing} {k n : ℕ}

/-- Such a word is that of a dependent string. -/
theorem DepWord.isDependent (h : DepWord w t.length k n) : t.isDependent w = true := by
  simp only [StrThing.isDependent, and_strflagDependent, decide_eq_true_eq]
  exact h.decode.1

/-- It is that of a prefix where the start is 0. -/
theorem DepWord.isPrefix (h : DepWord w t.length k n) : t.isPrefix w = decide (k = 0) := by
  simp only [StrThing.isPrefix, and_strflagPrefix, Bool.decide_eq_true]
  exact h.decode.2.1

/-- `JSSTRDEP_START` reads the start. -/
theorem DepWord.strdepStart (h : DepWord w t.length k n) : t.strdepStart w = k := by
  rw [StrThing.strdepStart, h.isPrefix]
  rcases Nat.eq_zero_or_pos k with rfl | hk
  · rfl
  · rw [decide_eq_false (by omega), if_neg (by simp), (h.decode.2.2.2 hk).1]

/-- `JSSTRDEP_LENGTH` reads the length. -/
theorem DepWord.strdepLength (h : DepWord w t.length k n) : t.strdepLength w = n := by
  rw [StrThing.strdepLength, h.isPrefix]
  rcases Nat.eq_zero_or_pos k with rfl | hk
  · exact h.decode.2.2.1 rfl
  · rw [decide_eq_false (by omega), if_neg (by simp), (h.decode.2.2.2 hk).2.1]

/-- `JSSTRING_LENGTH` of a dependent string reads the same. -/
theorem DepWord.stringLength (h : DepWord w t.length k n) : t.stringLength w = n := by
  rw [StrThing.stringLength, if_pos h.isDependent, h.strdepLength]

/-- A dependent string that is no prefix is short enough for its word. -/
theorem DepWord.lt_of_pos (h : DepWord w t.length k n) (hk : 0 < k) : n < 2 ^ w :=
  (h.decode.2.2.2 hk).2.2.2

end

/-! ### Values -/

namespace StrHeap

/-- The string `s` denotes `v`, by way of `d` bases. -/
inductive Denotes (w : ℕ) (h : StrHeap) : ℕ → ℕ → List UInt16 → Prop
  | flat {s p n : ℕ} {t : StrThing} {v : List UInt16} :
      h.things s = some t → t.ref = .chars p → t.length = v.length → v.length < 2 ^ (2 * w) →
      v.length < n → h.mem.Holds p n v → Denotes w h 0 s v
  | dep {d s b k n : ℕ} {t : StrThing} {u : List UInt16} :
      h.things s = some t → t.ref = .base b → t.isMutable = true → DepWord w t.length k n →
      0 < n → k + n ≤ u.length → Denotes w h d b u → Denotes w h (d + 1) s ((u.drop k).take n)

/-- The string `s` denotes `v`. -/
def Value (w : ℕ) (h : StrHeap) (s : ℕ) (v : List UInt16) : Prop := ∃ d, h.Denotes w d s v

variable {h h' : StrHeap} {s d e : ℕ} {u v : List UInt16}

/-- What denotes a value is live. -/
theorem Denotes.live (hd : h.Denotes w d s v) : (h.things s).isSome := by
  cases hd with
  | flat ht => simp [ht]
  | dep ht => simp [ht]

/-- The word of a string has its length. -/
theorem Denotes.stringLength (hd : h.Denotes w d s v) {t : StrThing} (ht : h.things s = some t) :
    t.stringLength w = v.length := by
  cases hd with
  | flat ht' _ hl hlt =>
      obtain rfl := Option.some.inj (ht.symm.trans ht')
      rw [StrThing.stringLength, not_isDependent (hl ▸ hlt), hl]
      rfl
  | dep ht' _ _ hw _ hk =>
      obtain rfl := Option.some.inj (ht.symm.trans ht')
      rw [hw.stringLength]
      simp
      omega

/-- A string is dependent if there is a base behind it. -/
theorem Denotes.isDependent (hd : h.Denotes w d s v) {t : StrThing} (ht : h.things s = some t) :
    t.isDependent w = decide (0 < d) := by
  cases hd with
  | flat ht' _ hl hlt =>
      obtain rfl := Option.some.inj (ht.symm.trans ht')
      exact not_isDependent (hl ▸ hlt)
  | dep ht' _ _ hw =>
      obtain rfl := Option.some.inj (ht.symm.trans ht')
      exact hw.isDependent

/-- A block holds one list of a length. -/
theorem Holds.unique {m : Mem UInt16} {p n k : ℕ} (h₁ : m.Holds p n u) (h₂ : m.Holds p k v)
    (hl : u.length = v.length) : u = v := by
  refine List.ext_getElem hl fun i hi hi' => ?_
  have := (h₁.cell i hi).symm.trans (h₂.cell i hi')
  simpa using this

/-- **A string denotes one value.** -/
theorem Denotes.unique (hd : h.Denotes w d s u) (he : h.Denotes w e s v) : d = e ∧ u = v := by
  induction hd generalizing e v with
  | flat ht hr hl hlt hn hm =>
      cases he with
      | flat ht' hr' hl' _ _ hm' =>
          obtain rfl := Option.some.inj (ht.symm.trans ht')
          obtain rfl : _ = _ := StrRef.chars.inj (hr.symm.trans hr')
          exact ⟨rfl, Holds.unique hm hm' (hl.symm.trans hl')⟩
      | dep ht' hr' =>
          obtain rfl := Option.some.inj (ht.symm.trans ht')
          rw [hr] at hr'
          cases hr'
  | dep ht hr _ hw _ _ _ ih =>
      cases he with
      | flat ht' hr' =>
          obtain rfl := Option.some.inj (ht.symm.trans ht')
          rw [hr] at hr'
          cases hr'
      | dep ht' hr' _ hw' _ _ hb =>
          obtain rfl := Option.some.inj (ht.symm.trans ht')
          obtain rfl : _ = _ := StrRef.base.inj (hr.symm.trans hr')
          obtain ⟨rfl, rfl⟩ := ih hb
          rw [← hw.strdepStart, ← hw.strdepLength, hw'.strdepStart, hw'.strdepLength]
          exact ⟨rfl, rfl⟩

/-- A string has one value. -/
theorem Value.unique (hu : h.Value w s u) (hv : h.Value w s v) : u = v :=
  let ⟨_, hd⟩ := hu
  let ⟨_, he⟩ := hv
  (hd.unique he).2

/-- **Values carry over.**  The strings of `X` denote in `h'` what they do in `h`; the
others are the same words, over buffers that hold the same. -/
theorem Denotes.transfer {X : ℕ → Prop}
    (hX : ∀ s v, X s → h.Value w s v → h'.Value w s v)
    (ht : ∀ s t, ¬X s → h.things s = some t → h'.things s = some t)
    (hm : ∀ s t p v, ¬X s → h.things s = some t → t.ref = .chars p →
      (∃ n, v.length < n ∧ h.mem.Holds p n v) → ∃ n, v.length < n ∧ h'.mem.Holds p n v)
    (hd : h.Denotes w d s v) : h'.Value w s v := by
  induction hd with
  | @flat s p n t v hs hr hl hlt hn hh =>
      by_cases hx : X s
      · exact hX s v hx ⟨0, .flat hs hr hl hlt hn hh⟩
      · obtain ⟨n', hn', hh'⟩ := hm s t p v hx hs hr ⟨n, hn, hh⟩
        exact ⟨0, .flat (ht s t hx hs) hr hl hlt hn' hh'⟩
  | @dep d s b k n t u hs hr hmut hw hn hk hb ih =>
      by_cases hx : X s
      · exact hX s _ hx ⟨d + 1, .dep hs hr hmut hw hn hk hb⟩
      · obtain ⟨e, he⟩ := ih
        exact ⟨e + 1, .dep (ht s t hx hs) hr hmut hw hn hk he⟩

/-- The case of one string, and a memory that is left alone. -/
theorem Value.set {t : StrThing} {x : ℕ} (hX : ∀ v, h.Value w x v → (h.set x t).Value w x v)
    (hv : h.Value w s v) : (h.set x t).Value w s v := by
  obtain ⟨d, hd⟩ := hv
  refine hd.transfer (X := (· = x)) ?_ ?_ ?_
  · rintro s v rfl hv
    exact hX v hv
  · intro s t' hs ht'
    simp only [StrHeap.set]
    rw [if_neg hs, ht']
  · intro _ _ _ _ _ _ _ hm
    exact hm

/-- A string that is fewer bases away from its characters does not notice. -/
theorem Denotes.set_of_lt {t : StrThing} {x : ℕ} (hd : h.Denotes w d s v)
    (hx : ∀ e u, h.Denotes w e x u → d < e) : (h.set x t).Denotes w d s v := by
  induction hd with
  | @flat s p n t' v ht hr hl hlt hn hm =>
      have hne : s ≠ x := by
        rintro rfl
        exact absurd (hx 0 v (.flat ht hr hl hlt hn hm)) (by omega)
      exact .flat (by simp [StrHeap.set, hne, ht]) hr hl hlt hn hm
  | @dep d s b k n t' u ht hr hmut hw hn hk hb ih =>
      have hne : s ≠ x := by
        rintro rfl
        exact absurd (hx (d + 1) _ (.dep ht hr hmut hw hn hk hb)) (by omega)
      exact .dep (by simp [StrHeap.set, hne, ht]) hr hmut hw hn hk
        (ih fun e u he => by have := hx e u he; omega)

/-! ### How long chains can be -/

/-- Along a chain of bases there are chains of every smaller length. -/
theorem Denotes.shorter (hd : h.Denotes w d s v) : ∀ i ≤ d, ∃ x u, h.Denotes w i x u := by
  induction hd with
  | flat ht hr hl hlt hn hm =>
      intro i hi
      obtain rfl : i = 0 := by omega
      exact ⟨_, _, .flat ht hr hl hlt hn hm⟩
  | @dep d _ _ _ _ _ _ ht hr hmut hw hn hk hb ih =>
      intro i hi
      rcases Nat.lt_or_ge d i with h | h
      · obtain rfl : i = d + 1 := by omega
        exact ⟨_, _, .dep ht hr hmut hw hn hk hb⟩
      · exact ih i h

/-- **A chain of bases is no longer than there are strings:** the strings along it are so
many bases away from their characters, each another number. -/
theorem Denotes.lt_top (hd : h.Denotes w d s v) (htop : ∀ x, (h.things x).isSome → x < h.top) :
    d < h.top := by
  choose f g hf using hd.shorter
  have hlive : ∀ i : Fin (d + 1), f i (by omega) < h.top := fun i =>
    htop _ (hf i (by omega)).live
  have hinj : Function.Injective fun i : Fin (d + 1) =>
      (⟨f i (by omega), hlive i⟩ : Fin h.top) := by
    intro i j hij
    have hfij : f i (by omega) = f j (by omega) := congrArg Fin.val hij
    have := (hf i (by omega)).unique (hfij ▸ hf j (by omega))
    exact Fin.ext this.1
  have hcard := Fintype.card_le_of_injective _ hinj
  simp only [Fintype.card_fin] at hcard
  omega

end StrHeap

end ProntoScript
