/-
# The code points of a string

What `js_DeflateString` encodes is a sequence of code points: the characters that are
no surrogates, and the pairs.  Both ways of writing a code point, in `jschar`s and in
bytes, are prefix codes, and only the code point 0 is written with a zero.  So two
strings that can be encoded have the same bytes up to the first NUL exactly if they
are the same up to the first NUL (`deflateString_takeWhile`).
-/

import Mathlib.Tactic.SplitIfs
import ProntoScript.Engine.Utf8
import ProntoScript.Foundation.PrefixCode

namespace ProntoScript

open PrefixCode

/-- The `jschar`s of a code point. -/
def codeUnits (v : ℕ) : JSString :=
  if v < 0x10000 then [UInt16.ofNat v]
  else [UInt16.ofNat ((v - 0x10000) / 1024 + 0xD800), UInt16.ofNat ((v - 0x10000) % 1024 + 0xDC00)]

section

variable {v : ℕ} {s t : JSString} {bytes bytes' : List UInt8}

/-- The `jschar`s are a prefix code: a surrogate is not a code point by itself. -/
theorem isPrefixCode_codeUnits : IsPrefixCode Nat.isValidChar codeUnits where
  ne_nil v _ := by
    unfold codeUnits
    split_ifs <;> simp
  symbol {v w x y} hv hw h := by
    unfold codeUnits at h
    unfold Nat.isValidChar at hv hw
    split_ifs at h <;>
      simp only [List.cons_append, List.nil_append, List.cons.injEq, ← UInt16.toNat_inj,
        UInt16.toNat_ofNat'] at h <;>
      omega

/-- UTF-8 is a prefix code: the first byte says how many there are. -/
theorem isPrefixCode_utf8 : IsPrefixCode Nat.isValidChar oneUcs4ToUtf8Char where
  ne_nil v _ := by
    unfold oneUcs4ToUtf8Char
    split_ifs <;> simp
  symbol {v w x y} hv hw h := by
    unfold oneUcs4ToUtf8Char at h
    unfold Nat.isValidChar at hv hw
    split_ifs at h <;>
      simp only [List.cons_append, List.nil_append, List.cons.injEq, ← UInt8.toNat_inj,
        UInt8.toNat_ofNat'] at h <;>
      omega

/-- **What can be encoded is a sequence of code points**, written the one way and the
other. -/
theorem deflateString_codePoints (h : deflateString s = some bytes) :
    ∃ l : List ℕ, (∀ v ∈ l, v.isValidChar) ∧ s = l.flatMap codeUnits ∧
      bytes = l.flatMap oneUcs4ToUtf8Char := by
  fun_induction deflateString s generalizing bytes with
  | case1 =>
      cases h
      exact ⟨[], by simp, rfl, rfl⟩
  | case2 c rest hlow => cases h
  | case3 c rest hlow hsingle ih =>
      obtain ⟨tail, htail, rfl⟩ := Option.map_eq_some_iff.1 h
      obtain ⟨l, hl, rfl, rfl⟩ := ih htail
      simp only [UInt16.lt_iff_toNat_lt, UInt16.le_iff_toNat_le, UInt16.reduceToNat] at hlow hsingle
      have hlt := c.toNat_lt
      refine ⟨c.toNat :: l, List.forall_mem_cons.2 ⟨?_, hl⟩, ?_, rfl⟩
      · show c.toNat < 0xD800 ∨ 0xDFFF < c.toNat ∧ c.toNat < 0x110000
        omega
      · rw [List.flatMap_cons, codeUnits, if_pos (by omega), UInt16.ofNat_toNat]
        rfl
  | case4 c hlow hhigh => cases h
  | case5 c hlow hhigh c₂ rest hbad => cases h
  | case6 c hlow hhigh c₂ rest hok v =>
      rename_i ih
      obtain ⟨tail, htail, rfl⟩ := Option.map_eq_some_iff.1 h
      obtain ⟨l, hl, rfl, rfl⟩ := ih htail
      simp only [UInt16.lt_iff_toNat_lt, UInt16.le_iff_toNat_le, UInt16.reduceToNat]
        at hlow hhigh hok
      refine ⟨v :: l, List.forall_mem_cons.2 ⟨?_, hl⟩, ?_, rfl⟩
      · show v < 0xD800 ∨ 0xDFFF < v ∧ v < 0x110000
        omega
      · -- the two halves of the pair are what is left of the code point
        have hc : (v - 0x10000) / 1024 + 0xD800 = c.toNat := by omega
        have hc₂ : (v - 0x10000) % 1024 + 0xDC00 = c₂.toNat := by omega
        rw [List.flatMap_cons, codeUnits, if_neg (by omega), hc, hc₂, UInt16.ofNat_toNat,
          UInt16.ofNat_toNat]
        rfl

/-- Only the code point 0 is written with a zero. -/
theorem codeUnits_ne_zero (hv : v.isValidChar) (hne : v ≠ 0) : ∀ u ∈ codeUnits v, u ≠ 0 := by
  have hvalid : v < 0xD800 ∨ 0xDFFF < v ∧ v < 0x110000 := hv
  unfold codeUnits
  split_ifs <;>
    simp only [List.forall_mem_cons, ne_eq, ← UInt16.toNat_inj, UInt16.toNat_ofNat',
      UInt16.reduceToNat] <;>
    simp <;> omega

/-- Only the code point 0 is encoded with a NUL. -/
theorem utf8_ne_zero (hv : v.isValidChar) (hne : v ≠ 0) : ∀ b ∈ oneUcs4ToUtf8Char v, b ≠ 0 := by
  have hvalid : v < 0xD800 ∨ 0xDFFF < v ∧ v < 0x110000 := hv
  unfold oneUcs4ToUtf8Char
  split_ifs <;>
    simp only [List.forall_mem_cons, ne_eq, ← UInt8.toNat_inj, UInt8.toNat_ofNat',
      UInt8.reduceToNat] <;>
    simp <;> omega

/-- **Two strings have the same bytes up to the first NUL** exactly if they are the same
up to the first NUL. -/
theorem deflateString_takeWhile (hs : deflateString s = some bytes)
    (ht : deflateString t = some bytes') :
    bytes.takeWhile (· != 0) = bytes'.takeWhile (· != 0) ↔
      s.takeWhile (· != 0) = t.takeWhile (· != 0) := by
  obtain ⟨l, hl, rfl, rfl⟩ := deflateString_codePoints hs
  obtain ⟨m, hm, rfl, rfl⟩ := deflateString_codePoints ht
  have hmem : ∀ l : List ℕ, (∀ v ∈ l, v.isValidChar) → ∀ v ∈ l.takeWhile (· != 0), v.isValidChar :=
    fun l hl v hv => hl v (List.takeWhile_subset _ hv)
  have hunits : ∀ l : List ℕ, (∀ v ∈ l, v.isValidChar) →
      (l.flatMap codeUnits).takeWhile (· != 0) = (l.takeWhile (· != 0)).flatMap codeUnits :=
    fun l hl => takeWhile_flatMap rfl fun v hv => codeUnits_ne_zero (hl v hv)
  have hbytes : ∀ l : List ℕ, (∀ v ∈ l, v.isValidChar) →
      (l.flatMap oneUcs4ToUtf8Char).takeWhile (· != 0) =
        (l.takeWhile (· != 0)).flatMap oneUcs4ToUtf8Char :=
    fun l hl => takeWhile_flatMap rfl fun v hv => utf8_ne_zero (hl v hv)
  rw [hunits l hl, hunits m hm, hbytes l hl, hbytes m hm]
  constructor <;> intro heq
  · rw [flatMap_inj isPrefixCode_utf8 (hmem l hl) (hmem m hm) heq]
  · rw [flatMap_inj isPrefixCode_codeUnits (hmem l hl) (hmem m hm) heq]

end

end ProntoScript
