/-
# Strings of the engine as UTF-8 bytes

`js_InflateString`, `js_InflateStringToBuffer`, `js_DeflateString` and
`js_DeflateStringToBuffer` in `js/src/jsstr.c`, lines 2890-3077, under
`JS_C_STRINGS_ARE_UTF8` (set by `js/src/Makefile.am`).  Both directions walk the
source once to measure and once to convert; a source that is not well formed is
an error, here `none`.  Bytes below 0x80 are the characters of the same number
(`inflateString_ascii`).
-/

import ProntoScript.Engine.Value

namespace ProntoScript

/-- The number of leading ones of a first byte: the length of its sequence. -/
def utf8SequenceLength (v : UInt8) : ℕ :=
  if v < 0xC0 then 1 else if v < 0xE0 then 2 else if v < 0xF0 then 3 else if v < 0xF8 then 4
  else if v < 0xFC then 5 else if v < 0xFE then 6 else if v < 0xFF then 7 else 8

/-- `Utf8ToOneUcs4Char` on a sequence of `n` bytes, 2 at least: a form that is not the
shortest by `minucs4Table`, 0xFFFE and 0xFFFF become 0xFFFD. Source: lines 4839-4868 of
`js/src/jsstr.c`. -/
def utf8ToOneUcs4Char (n : ℕ) (first : UInt8) (rest : List UInt8) : ℕ :=
  let c := rest.foldl (fun c b => c * 64 + b.toNat % 64) (first.toNat % 2 ^ (7 - n))
  let least := match n with
    | 2 => 0x80
    | 3 => 0x800
    | 4 => 0x1000
    | 5 => 0x20000
    | _ => 0x400000
  if c < least ∨ c = 0xFFFE ∨ c = 0xFFFF then 0xFFFD else c

/-- The loop of `js_InflateStringToBuffer`; the first argument bounds the bytes left.
Source: lines 2997-3077 of `js/src/jsstr.c`. -/
def inflateLoop : ℕ → List UInt8 → Option JSString
  | _, [] => some []
  | 0, _ :: _ => none
  | k + 1, b :: rest =>
      if b < 0x80 then (inflateLoop k rest).map (b.toUInt16 :: ·)
      else
        let n := utf8SequenceLength b
        if rest.length + 1 < n then none
        else if n = 1 ∨ 6 < n then none
        else if (rest.take (n - 1)).any (fun c => c &&& 0xC0 != 0x80) then none
        else
          let v := utf8ToOneUcs4Char n b (rest.take (n - 1))
          let tail := inflateLoop k (rest.drop (n - 1))
          if v < 0x10000 then tail.map (UInt16.ofNat v :: ·)
          else if 0xFFFFF < v - 0x10000 then none
          else
            let v := v - 0x10000
            tail.map fun s =>
              UInt16.ofNat (v / 1024 + 0xD800) :: UInt16.ofNat (v % 1024 + 0xDC00) :: s

/-- `js_InflateString`: the string a byte sequence encodes. Source: lines 2890-2905 of
`js/src/jsstr.c`. -/
def inflateString (bytes : List UInt8) : Option JSString := inflateLoop bytes.length bytes

/-- `js_OneUcs4ToUtf8Char`, for the code points two surrogates can name. Source:
lines 4808-4832 of `js/src/jsstr.c`. -/
def oneUcs4ToUtf8Char (v : ℕ) : List UInt8 :=
  if v < 0x80 then [UInt8.ofNat v]
  else if v < 0x800 then [UInt8.ofNat (0xC0 + v / 64), UInt8.ofNat (0x80 + v % 64)]
  else if v < 0x10000 then
    [UInt8.ofNat (0xE0 + v / 4096), UInt8.ofNat (0x80 + v / 64 % 64), UInt8.ofNat (0x80 + v % 64)]
  else
    [UInt8.ofNat (0xF0 + v / 262144), UInt8.ofNat (0x80 + v / 4096 % 64),
      UInt8.ofNat (0x80 + v / 64 % 64), UInt8.ofNat (0x80 + v % 64)]

/-- `js_DeflateString`: the bytes of a string; a surrogate that is not half of a pair is
an error. Source: lines 2910-2923 of `js/src/jsstr.c`. -/
def deflateString : JSString → Option (List UInt8)
  | [] => some []
  | c :: rest =>
      if 0xDC00 ≤ c ∧ c ≤ 0xDFFF then none
      else if c < 0xD800 ∨ 0xDBFF < c then
        (deflateString rest).map (oneUcs4ToUtf8Char c.toNat ++ ·)
      else
        match rest with
        | [] => none
        | c₂ :: rest =>
            if c₂ < 0xDC00 ∨ 0xDFFF < c₂ then none
            else
              let v := (c.toNat - 0xD800) * 1024 + (c₂.toNat - 0xDC00) + 0x10000
              (deflateString rest).map (oneUcs4ToUtf8Char v ++ ·)

/-- `JS_GetStringBytes`: the bytes of a string, none where it has no encoding. Source:
lines 4366-4373 of `js/src/jsapi.c`. -/
def getStringBytes (s : JSString) : List UInt8 := (deflateString s).getD []

/-- `JS_NewStringCopyZ` of a text in ASCII. Source: lines 4293-4311 of `js/src/jsapi.c`. -/
def asciiString (text : String) : JSString := text.toList.map fun c => UInt16.ofNat c.toNat

/-- Bytes below 0x80 are the characters that they are. -/
theorem inflateLoop_ascii {k : ℕ} {bytes : List UInt8} (hk : bytes.length ≤ k)
    (h : ∀ b ∈ bytes, b < 0x80) : inflateLoop k bytes = some (bytes.map UInt8.toUInt16) := by
  induction bytes generalizing k with
  | nil => cases k <;> rfl
  | cons b bytes ih =>
      obtain ⟨k, rfl⟩ : ∃ j, k = j + 1 := ⟨k - 1, by simp at hk; omega⟩
      have hb : b < 0x80 := h b (by simp)
      rw [inflateLoop, if_pos hb, ih (by simpa using hk) fun c hc => h c (by simp [hc])]
      rfl

/-- **Bytes below 0x80 decode to themselves.** -/
theorem inflateString_ascii {bytes : List UInt8} (h : ∀ b ∈ bytes, b < 0x80) :
    inflateString bytes = some (bytes.map UInt8.toUInt16) :=
  inflateLoop_ascii (Nat.le_refl _) h

example :
    inflateString [0x48, 0xC3, 0xA9, 0xF0, 0x9D, 0x84, 0x9E] = some [0x48, 0xE9, 0xD834, 0xDD1E] ∧
    deflateString [0x48, 0xE9, 0xD834, 0xDD1E] =
      some [0x48, 0xC3, 0xA9, 0xF0, 0x9D, 0x84, 0x9E] := by
  decide

end ProntoScript
