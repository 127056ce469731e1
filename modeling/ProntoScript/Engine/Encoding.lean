/-
# Decoding and encoding, character by character

Facts about `js_InflateString` and `js_DeflateString` (`js/src/jsstr.c`, lines
2890-3077).  Decoding takes one character after the other: the first byte says how
many bytes belong to it (`inflateChar`), and nothing behind them matters.  So
decoding a concatenation is decoding its parts wherever the first part is well
formed by itself (`inflateString_append`), and a part cut inside a character is
not.  Encoding gives at least one byte for each character, and exactly one only
below 0x80 (`deflateString_length`).
-/

import Mathlib.Data.List.TakeWhile
import Mathlib.Tactic.ByContra
import Mathlib.Tactic.SplitIfs
import ProntoScript.Engine.Utf8

namespace ProntoScript

/-! ### Decoding -/

/-- The first character of a byte sequence: its units, and how many bytes belong to
it behind the first one. -/
def inflateChar (b : UInt8) (rest : List UInt8) : Option (JSString × ℕ) :=
  if b < 0x80 then some ([b.toUInt16], 0)
  else
    let n := utf8SequenceLength b
    if rest.length + 1 < n then none
    else if n = 1 ∨ 6 < n then none
    else if (rest.take (n - 1)).any (fun c => c &&& 0xC0 != 0x80) then none
    else
      let v := utf8ToOneUcs4Char n b (rest.take (n - 1))
      if v < 0x10000 then some ([UInt16.ofNat v], n - 1)
      else if 0xFFFFF < v - 0x10000 then none
      else
        let v := v - 0x10000
        some ([UInt16.ofNat (v / 1024 + 0xD800), UInt16.ofNat (v % 1024 + 0xDC00)], n - 1)

section Inflate

variable {b : UInt8} {rest more bytes bytes' : List UInt8} {u s s' : JSString} {k m : ℕ}

/-- The loop takes one character and goes on behind it. -/
theorem inflateLoop_cons :
    inflateLoop (k + 1) (b :: rest) =
      (inflateChar b rest).bind fun c => (inflateLoop k (rest.drop c.2)).map (c.1 ++ ·) := by
  rw [inflateLoop, inflateChar]
  split_ifs <;> try rfl
  dsimp only
  split_ifs <;> rfl

variable (more) in
/-- A character has at least one unit, its bytes are there, and the bytes behind
them do not matter. -/
theorem inflateChar_spec (h : inflateChar b rest = some (u, m)) :
    u ≠ [] ∧ m ≤ rest.length ∧ inflateChar b (rest ++ more) = some (u, m) := by
  unfold inflateChar at h ⊢
  by_cases hb : b < 0x80
  · rw [if_pos hb] at h ⊢
    cases h
    exact ⟨by simp, Nat.zero_le _, rfl⟩
  · rw [if_neg hb] at h ⊢
    dsimp only at h ⊢
    split_ifs at h with hlen hn hcont hbmp hbig
    all_goals
      have htake : (rest ++ more).take (utf8SequenceLength b - 1) =
          rest.take (utf8SequenceLength b - 1) := List.take_append_of_le_length (by omega)
      cases h
      refine ⟨by simp, by omega, ?_⟩
      rw [if_neg (by rw [List.length_append]; omega), if_neg hn, htake, if_neg hcont]
    · rw [if_pos hbmp]
    · rw [if_neg hbmp, if_neg hbig]

/-- More fuel than bytes changes nothing. -/
theorem inflateLoop_of_le (hk : bytes.length ≤ k) : inflateLoop k bytes = inflateString bytes := by
  unfold inflateString
  induction hn : bytes.length using Nat.strongRecOn generalizing bytes k with
  | ind n ih =>
      subst hn
      cases bytes with
      | nil => cases k <;> rfl
      | cons b rest =>
          obtain ⟨k, rfl⟩ : ∃ j, k = j + 1 := ⟨k - 1, by simp at hk; omega⟩
          rw [List.length_cons] at hk ⊢
          rw [inflateLoop_cons, inflateLoop_cons]
          congr 1
          funext c
          have hdrop : (rest.drop c.2).length ≤ rest.length := by simp
          rw [ih _ (Nat.lt_succ_of_le hdrop) (k := k) (by omega) rfl,
            ih _ (Nat.lt_succ_of_le hdrop) (k := rest.length) hdrop rfl]

/-- The string of a byte sequence, its first character split off. -/
theorem inflateString_cons :
    inflateString (b :: rest) =
      (inflateChar b rest).bind fun c => (inflateString (rest.drop c.2)).map (c.1 ++ ·) := by
  change inflateLoop (rest.length + 1) (b :: rest) = _
  rw [inflateLoop_cons]
  congr 1
  funext c
  rw [inflateLoop_of_le (by simp)]

/-- **Decoding is a homomorphism** where the first part is well formed by itself. -/
theorem inflateString_append (h : inflateString bytes = some s) :
    inflateString (bytes ++ more) = (inflateString more).map (s ++ ·) := by
  induction hn : bytes.length using Nat.strongRecOn generalizing bytes s with
  | ind n ih =>
      subst hn
      cases bytes with
      | nil =>
          obtain rfl : [] = s := Option.some.inj h
          show inflateString more = (inflateString more).map id
          rw [Option.map_id, id]
      | cons b rest =>
          rw [inflateString_cons] at h
          obtain ⟨⟨u, m⟩, hchar, hrest⟩ := Option.bind_eq_some_iff.1 h
          obtain ⟨s, hs, rfl⟩ := Option.map_eq_some_iff.1 hrest
          obtain ⟨-, hm, hchar'⟩ := inflateChar_spec more hchar
          have hdrop : (rest.drop m).length < (b :: rest).length := by
            rw [List.length_drop, List.length_cons]
            omega
          rw [List.cons_append, inflateString_cons, hchar', Option.bind_some,
            List.drop_append_of_le_length hm, ih _ hdrop hs rfl, Option.map_map]
          congr 1
          funext t
          simp

/-- No byte decodes to nothing. -/
theorem ne_nil_of_inflateString (h : inflateString bytes = some s) (hb : bytes ≠ []) : s ≠ [] := by
  cases bytes with
  | nil => exact absurd rfl hb
  | cons b rest =>
      rw [inflateString_cons] at h
      obtain ⟨⟨u, m⟩, hchar, hrest⟩ := Option.bind_eq_some_iff.1 h
      obtain ⟨t, -, rfl⟩ := Option.map_eq_some_iff.1 hrest
      have hu := (inflateChar_spec [] hchar).1
      simp [hu]

/-- A proper beginning of a byte sequence has another string. -/
theorem eq_nil_of_inflateString_append (h : inflateString bytes = some s)
    (h' : inflateString (bytes ++ more) = some s) : more = [] := by
  rw [inflateString_append h] at h'
  obtain ⟨t, ht, heq⟩ := Option.map_eq_some_iff.1 h'
  have hnil : t = [] := by simpa using heq
  by_contra hmore
  exact ne_nil_of_inflateString ht hmore hnil

end Inflate

/-! ### Encoding -/

section Deflate

variable {v : ℕ} {s : JSString} {bytes : List UInt8}

/-- The encoding of a character below 0x80 is one byte, of any other more. -/
theorem oneUcs4ToUtf8Char_length :
    (v < 0x80 → (oneUcs4ToUtf8Char v).length = 1) ∧
      (0x80 ≤ v → 2 ≤ (oneUcs4ToUtf8Char v).length) ∧
      (0x10000 ≤ v → (oneUcs4ToUtf8Char v).length = 4) := by
  unfold oneUcs4ToUtf8Char
  refine ⟨fun h => ?_, fun h => ?_, fun h => ?_⟩
  · rw [if_pos h]
    rfl
  · rw [if_neg (by omega)]
    split_ifs <;> simp
  · rw [if_neg (by omega), if_neg (by omega), if_neg (by omega)]
    rfl

/-- **The length of an encoding**: at least that of the string, and the same only
where every character is below 0x80. -/
theorem deflateString_length (h : deflateString s = some bytes) :
    s.length ≤ bytes.length ∧ (bytes.length ≤ s.length ↔ ∀ c ∈ s, c < 0x80) := by
  fun_induction deflateString s generalizing bytes with
  | case1 =>
      cases h
      simp
  | case2 c rest hlow => cases h
  | case3 c rest hlow hsingle ih =>
      obtain ⟨tail, htail, rfl⟩ := Option.map_eq_some_iff.1 h
      obtain ⟨hle, hiff⟩ := ih htail
      have hc : c < 0x80 ↔ c.toNat < 0x80 := UInt16.lt_iff_toNat_lt
      obtain ⟨hone, hmore, -⟩ := oneUcs4ToUtf8Char_length (v := c.toNat)
      rw [List.length_append, List.length_cons, List.forall_mem_cons, ← hiff, hc]
      by_cases hascii : c.toNat < 0x80
      · rw [hone hascii]
        omega
      · have := hmore (by omega)
        omega
  | case4 c hlow hhigh => cases h
  | case5 c hlow hhigh c₂ rest hbad => cases h
  | case6 c hlow hhigh c₂ rest hok v =>
      rename_i ih
      obtain ⟨tail, htail, rfl⟩ := Option.map_eq_some_iff.1 h
      obtain ⟨hle, -⟩ := ih htail
      have hfour : (oneUcs4ToUtf8Char v).length = 4 :=
        oneUcs4ToUtf8Char_length.2.2 (Nat.le_add_left _ _)
      have hc : ¬c < 0x80 := fun hc => hhigh (.inl (UInt16.lt_trans hc (by decide)))
      rw [List.length_append, List.length_cons, List.length_cons, hfour]
      refine ⟨by omega, fun hlen => by omega, fun hascii => ?_⟩
      exact absurd (hascii c (by simp)) hc

end Deflate

/-! ### Strings for C -/

/-- The bytes of a string that a C string can hold whole: it has an encoding, and no NUL is
in it. -/
def plainBytes (s : JSString) : Option (List UInt8) :=
  (deflateString s).bind fun bytes => if 0 ∈ bytes then none else some bytes

/-- Such a string is not cut off at a NUL. -/
theorem plainBytes_some {s : JSString} {bytes : List UInt8} (h : plainBytes s = some bytes) :
    deflateString s = some bytes ∧ bytes.takeWhile (· != 0) = bytes := by
  obtain ⟨bytes', hbytes, hplain⟩ := Option.bind_eq_some_iff.1 h
  split_ifs at hplain with hnul
  cases hplain
  refine ⟨hbytes, List.takeWhile_eq_self_iff.2 fun b hb => ?_⟩
  rw [bne_iff_ne]
  rintro rfl
  exact hnul hb

end ProntoScript
