/-
# What the string operations do

One lemma for each operation of `js/src/jsstr.c` that makes a string: from a heap that is
in order it gets to one that is, the values of the strings there were are what they were
(`StrStore.Next`), and the string it answers has the value that it should.  Nothing more is
asked of `malloc`, `realloc` and the allocator of the collector than that what they hand
out is nobody's; where they have nothing, the answer is `NULL` and no buffer is lost.

The delicate case is `js_ConcatStrings` with a buffer that it may grow (`concatGrow_eq`).
The characters of `right` can be in that very buffer, in front of where they are copied to,
and `realloc` may have moved them.  `left` is a prefix of the new string afterwards, and
everything that depended on `left` still does.
-/

import ProntoScript.Strings.Store

namespace ProntoScript

open HeapBlocks

variable {w : ℕ}

namespace StrHeap

variable {h h' h'' : StrHeap} {s x b d k n p : ℕ} {t t' : StrThing} {u v : List UInt16}
  {l l' : Option ℕ}

/-- The heap is in order between two calls, and its locks are on flat strings. -/
structure Sound (w : ℕ) (h : StrHeap) : Prop where
  inv : h.Inv w none
  flat : h.LocksFlat

/-- What a call comes to: `new` is the string it makes, where it makes one. -/
structure Yields (w : ℕ) (roots : Option (List ℕ)) (h h' : StrHeap)
    (new : Option (ℕ × List UInt16)) : Prop where
  sound : h'.Sound w
  next : StrStore.Next (h.store w) (h'.store w) roots new
  emptyString : h'.emptyString = h.emptyString

/-- A heap with the same strings. -/
theorem Yields.same (hi : h'.Sound w) (hst : h'.store w = h.store w)
    (he : h'.emptyString = h.emptyString) (roots : Option (List ℕ)) : Yields w roots h h' none :=
  ⟨hi, by rw [hst]; exact .refl _ _, he⟩

/-! ### Flat strings -/

/-- **`js_NewString`** gives a buffer to a new string, or leaves it with the caller. -/
theorem newString_eq (hi : h.Inv w (some p)) (hf : h.LocksFlat) (o : StrAnswers)
    (hroots : ∀ rs, o.gc = some rs → ∀ r ∈ rs, (h.things r).isSome)
    (hm : h.mem.Holds p n (v ++ [0])) (mu lk : Bool) (hlock : lk = true → mu = false) :
    (∃ h', h.newString w o p v.length mu lk = some (h', none) ∧ h'.Inv w (some p) ∧
      h'.LocksFlat ∧ StrStore.Next (h.store w) (h'.store w) o.gc none ∧
      h'.emptyString = h.emptyString ∧ (∃ n, h'.mem.block p = some n) ∧
      (h.Terminated → h'.Terminated)) ∨
    ∃ h' s, h.newString w o p v.length mu lk = some (h', some s) ∧
      Yields w o.gc h h' (some (s, v)) ∧ (h.Terminated → h'.Terminated) := by
  unfold newString
  by_cases hmask : v.length > stringLengthMask w
  · rw [if_pos hmask]
    exact .inl ⟨h, rfl, hi, hf, .refl _ _, rfl, ⟨n, hm.block⟩, id⟩
  · rw [if_neg hmask]
    have hlen : v.length < 2 ^ (2 * w) := by
      have := Nat.two_pow_pos (2 * w)
      simp only [stringLengthMask] at hmask
      omega
    obtain ⟨h₁, hi₁, hf₁, hs₁, hnew⟩ :=
      newGCThing_eq hi hf o hroots ⟨v.length, .chars p, mu, lk⟩
    have hm₁ := hs₁.holds p n _ (fun s t ht hr => absurd hr (hi.loose p s t rfl ht)) hm
    have hterm : h.Terminated → h₁.Terminated := fun ht x => (ht x).survives hs₁ hi
    rcases hnew with heq | ⟨s, hs, heq⟩
    · exact .inl ⟨h₁, heq, hi₁, hf₁, hs₁.next hi, hs₁.emptyString, ⟨n, hm₁.block⟩, hterm⟩
    · have hlt : v.length < n := by
        have := hm.length_le
        simp at this
        omega
      have hv : (h₁.add s ⟨v.length, .chars p, mu, lk⟩).Value w s v :=
        ⟨0, .flat (t := ⟨v.length, .chars p, mu, lk⟩) (by simp [StrHeap.add, StrHeap.set]) rfl rfl
          hlen hlt hm₁.front⟩
      obtain ⟨hi₂, hst₂⟩ := hi₁.add hs hv (fun q hq => by rw [StrRef.chars.inj hq])
        (fun q hq => by rw [Option.some.inj hq])
      refine .inr ⟨_, s, heq, ⟨⟨hi₂, locksFlat_add hf₁ hlock⟩,
        StrStore.Next.add (hs₁.next hi) (store_eq_none hs) hst₂, hs₁.emptyString⟩,
        fun ht => (hterm ht).add fun q hq => ?_⟩
      obtain rfl := StrRef.chars.inj hq
      exact ⟨n, v, rfl, hm₁⟩

/-- The same, with the buffer freed where there is no string for it. -/
theorem newStringOrFree_eq (hi : h.Inv w (some p)) (hf : h.LocksFlat) (o : StrAnswers)
    (hroots : ∀ rs, o.gc = some rs → ∀ r ∈ rs, (h.things r).isSome)
    (hm : h.mem.Holds p n (v ++ [0])) (mu lk : Bool) (hlock : lk = true → mu = false) :
    ∃ h' r, h.newStringOrFree w o p v.length mu lk = some (h', r) ∧
      Yields w o.gc h h' (r.map (·, v)) ∧ (h.Terminated → h'.Terminated) := by
  rcases newString_eq hi hf o hroots hm mu lk hlock with
    ⟨h', heq, hi', hf', hn, he, ⟨k, hb⟩, hterm⟩ | ⟨h', s, heq, hy⟩
  · obtain ⟨h'', hfree, hi'', hb⟩ := free_eq hi' hb
    refine ⟨h'', none, ?_, ⟨⟨hi'', hb.locksFlat hf'⟩, ?_, hb.emptyString.trans he⟩,
      fun ht x => (hterm ht x).beside hb fun t ht hr => hi'.loose p x t rfl ht hr⟩
    · simp [newStringOrFree, heq, hfree]
    · rw [hb.store]
      exact hn
  · exact ⟨h', some s, by simp [newStringOrFree, heq], hy⟩

/-- Between two heaps with the same strings. -/
theorem Yields.of_store {roots : Option (List ℕ)} {new : Option (ℕ × List UInt16)}
    (hy : Yields w roots h' h'' new) (hst : h'.store w = h.store w)
    (he : h'.emptyString = h.emptyString) : Yields w roots h h'' new :=
  ⟨hy.sound, hst ▸ hy.next, hy.emptyString.trans he⟩

/-- **`js_NewStringCopyN`.** -/
theorem newStringCopyN_eq (hs : h.Sound w) (o : StrAnswers)
    (hroots : ∀ rs, o.gc = some rs → ∀ r ∈ rs, (h.things r).isSome) {src : CharSource}
    (hsrc : h.Sources src v) (hlen : v.length + 1 < addressLimit w) (mu lk : Bool)
    (hlock : lk = true → mu = false) :
    ∃ h' r, h.newStringCopyN w o src v.length mu lk = some (h', r) ∧
      Yields w o.gc h h' (r.map (·, v)) ∧ (h.Terminated → h'.Terminated) := by
  unfold newStringCopyN
  rcases malloc_eq hs.inv o.chars hlen with heq | ⟨h₁, p, heq, hi₁, hb₁, hm₁, hk₁⟩
  · exact ⟨h, none, by rw [heq], .same hs rfl rfl _, id⟩
  · have hsrc₁ : h₁.Sources src v := by
      cases src with
      | own cs => exact hsrc
      | «at» q =>
          obtain ⟨a, n, u, k, hm, hrest⟩ := hsrc
          exact ⟨a, n, u, k, hb₁.holds a n u (hk₁ a n u hm) hm, hrest⟩
    obtain ⟨h₂, heq₂, hi₂, hb₂, hm₂⟩ := strncpy_eq hi₁ hm₁ (hi₁.within _) hsrc₁ (by simp)
    obtain ⟨h₃, heq₃, hi₃, hb₃, hm₃⟩ := terminate_eq hi₂ hm₂ (hi₂.within _) (by simp)
    have hb := (hb₁.trans hb₂).trans hb₃
    obtain ⟨h', r, heq', hy, hterm⟩ := newStringOrFree_eq (v := v) hi₃ (hb.locksFlat hs.flat) o
      (fun rs hrs r hr => by rw [hb.things]; exact hroots rs hrs r hr) hm₃ mu lk hlock
    refine ⟨h', r, ?_, hy.of_store hb.store hb.emptyString, fun ht => hterm fun x => ?_⟩
    · simp only [List.nil_append, List.length_nil, Nat.add_zero] at heq₂ heq₃
      simp [heq, heq₂, heq₃, heq']
    · exact (ht x).beside hb fun t ht hr => hi₁.loose p x t rfl (hb₁.things ▸ ht) hr

/-! ### Dependent strings -/

/-- What is at an address can be copied from there. -/
theorem CharsAt.sources (hc : h.CharsAt w p b k v u) : h.Sources (.at p) v := by
  obtain ⟨hf, t, q, ht, hr, rfl⟩ := hc
  have heq := hf.eq
  cases hf.flat with
  | flat ht' hr' _ _ _ hm =>
      obtain rfl := Option.some.inj (ht.symm.trans ht')
      obtain rfl := StrRef.chars.inj (hr.symm.trans hr')
      exact ⟨q, _, u, k, hm, rfl, hf.le, heq.symm⟩

/-- From further on, and less. -/
theorem Sources.sub (hs : h.Sources (.at p) v) (hk : k + n ≤ v.length) :
    h.Sources (.at (p + k)) ((v.drop k).take n) := by
  obtain ⟨a, m, u, j, hm, rfl, hj, hv⟩ := hs
  have hlen := length_drop_take hk
  refine ⟨a, m, u, j + k, hm, by omega, by omega, ?_⟩
  rw [hlen, ← drop_take_drop_take u hk, hv]

/-- A value is no longer than the length word of a string can say. -/
theorem Value.length_lt (hv : h.Value w s v) : v.length < 2 ^ (2 * w) := by
  obtain ⟨d, hd⟩ := hv
  induction hd with
  | flat _ _ _ hlt => exact hlt
  | dep _ _ _ _ _ hk _ ih =>
      rw [length_drop_take hk]
      omega

/-- Two lengths and a terminator fit the address space. -/
theorem two_pow_lt_addressLimit {i j : ℕ} (hi : i < 2 ^ (2 * w)) (hj : j < 2 ^ (2 * w)) :
    i + j + 1 < addressLimit w := by
  rw [addressLimit, Nat.pow_succ]
  omega

/-- **`js_NewDependentString`** answers the empty string, the base itself, a copy or a
dependent string, and in each case a string of the characters that were asked for. -/
theorem newDependentString_eq (hs : h.Sound w) (o : StrAnswers)
    (hroots : ∀ rs, o.gc = some rs → ∀ r ∈ rs, (h.things r).isSome)
    (hbase : ∀ rs, o.gc = some rs → b ∈ rs) (hv : h.Value w b u) (hk : k + n ≤ u.length) :
    ∃ h' r, h.newDependentString w o b k n = some (h', r) ∧ (h.Terminated → h'.Terminated) ∧
      (Yields w o.gc h h' (r.map (·, (u.drop k).take n)) ∨
        Yields w none h h' none ∧ ∃ s, r = some s ∧ h'.Value w s ((u.drop k).take n)) := by
  obtain ⟨t, ht⟩ := Option.isSome_iff_exists.1 hv.choose_spec.live
  have hlen := length_drop_take hk
  have hlt := hv.length_lt
  unfold newDependentString
  by_cases hn : n = 0
  · refine ⟨h, some h.emptyString, by simp [hn], id, .inr ⟨.same hs rfl rfl _, _, rfl, ?_⟩⟩
    rw [hn, List.take_zero]
    exact hs.inv.empty.1
  · rw [if_neg hn, ht]
    have hsl := hv.choose_spec.stringLength ht
    simp only [Option.bind_eq_bind, Option.bind_some, hsl]
    by_cases hall : k = 0 ∧ n = u.length
    · refine ⟨h, some b, by rw [if_pos hall], id, .inr ⟨.same hs rfl rfl _, b, rfl, ?_⟩⟩
      rw [hall.1, hall.2, List.drop_zero, List.take_length]
      exact hv
    · rw [if_neg hall]
      by_cases hbig : k > strdepMask w ∨ (k ≠ 0 ∧ n > strdepMask w)
      · -- the word has no room for start and length, and the characters are copied
        rw [if_pos hbig]
        obtain ⟨h₁, p, base, j, z, heq, hsh, hc⟩ := stringChars_eq hs.inv hv
        obtain ⟨h', r, heq', hy, hterm⟩ := newStringCopyN_eq
          ⟨hsh.inv hs.inv, hsh.locksFlat hs.flat⟩ o
          (fun rs hrs r hr => by rw [hsh.live]; exact hroots rs hrs r hr) (hc.sources.sub hk)
          (by
            rw [hlen]
            exact two_pow_lt_addressLimit (i := n) (j := 0) (by omega) (Nat.two_pow_pos _))
          false false fun e => by cases e
        rw [hlen] at heq'
        exact ⟨h', r, by simp [heq, heq'], fun ht => hterm (ht.shortens hsh),
          .inl (hy.of_store (hsh.store_eq hs.inv) hsh.emptyString)⟩
      · rw [if_neg hbig]
        obtain ⟨word, hw, hword⟩ : ∃ word,
            (if k = 0 then prefixLength w n else startAndLength w k n) = word ∧
              DepWord w word k n := by
          have hpos := Nat.two_pow_pos w
          simp only [strdepMask] at hbig
          refine ⟨_, rfl, ?_⟩
          by_cases hk₀ : k = 0
          · rw [if_pos hk₀, hk₀]
            exact .front (by omega)
          · rw [if_neg hk₀]
            exact .sub (by omega) (by omega) (by omega)
        rw [hw]
        obtain ⟨h₁, hi₁, hf₁, hs₁, heq | ⟨s, hsn, heq⟩⟩ :=
          newGCThing_eq hs.inv hs.flat o hroots ⟨word, .base b, true, false⟩
        · exact ⟨h₁, none, heq, fun ht x => (ht x).survives hs₁ hs.inv,
            .inl ⟨⟨hi₁, hf₁⟩, hs₁.next hs.inv, hs₁.emptyString⟩⟩
        · -- the base is among the roots, and still there
          have hb₁ := hs₁.value b u (hs₁.root b (by simp [ht]) hbase) hv
          obtain ⟨d, hd⟩ := hb₁.add (t := ⟨word, .base b, true, false⟩) hsn
          have hnew : (h₁.add s ⟨word, .base b, true, false⟩).Value w s ((u.drop k).take n) :=
            ⟨d + 1, .dep (t := ⟨word, .base b, true, false⟩) (by simp [StrHeap.add, StrHeap.set])
              rfl rfl hword (by omega) hk hd⟩
          obtain ⟨hi₂, hst₂⟩ := hi₁.add hsn hnew (fun _ hp => by cases hp) fun _ hp => by cases hp
          exact ⟨_, some s, heq,
            fun ht => Terminated.add (fun x => (ht x).survives hs₁ hs.inv)
              (fun _ hp => by cases hp),
            .inl ⟨⟨hi₂, locksFlat_add hf₁ (fun e => by cases e)⟩,
              .add (hs₁.next hs.inv) (store_eq_none hsn) hst₂, hs₁.emptyString⟩⟩

/-! ### Concatenation -/

/-- What can be copied can still be copied where the buffers hold what they did. -/
theorem Sources.mono {q : ℕ} (hs : h.Sources (.at q) v)
    (hm : ∀ p n u, h.mem.Holds p n u → h'.mem.Holds p n u) : h'.Sources (.at q) v := by
  obtain ⟨a, n, u, k, ha, hrest⟩ := hs
  exact ⟨a, n, u, k, hm a n u ha, hrest⟩

/-- **`js_ConcatStrings` into a buffer of its own.** -/
theorem concatCopy_eq (hs : h.Sound w) (o : StrAnswers)
    (hroots : ∀ rs, o.gc = some rs → ∀ r ∈ rs, (h.things r).isSome) {left rs : ℕ}
    {lv rv : List UInt16} (hl : h.Value w left lv) (hr : h.Sources (.at rs) rv)
    (hrv : rv.length < 2 ^ (2 * w)) :
    ∃ h' r, h.concatCopy w o left lv.length rs rv.length = some (h', r) ∧
      Yields w o.gc h h' (r.map (·, lv ++ rv)) ∧ (h.Terminated → h'.Terminated) := by
  obtain ⟨h₁, ls, base, k, u, heq, hsh, hc⟩ := stringChars_eq hs.inv hl
  have hs₁ : h₁.Sound w := ⟨hsh.inv hs.inv, hsh.locksFlat hs.flat⟩
  have hr₁ : h₁.Sources (.at rs) rv := hr.mono fun _ _ _ hm => hsh.mem ▸ hm
  unfold concatCopy
  simp only [heq, Option.bind_eq_bind, Option.bind_some]
  rcases malloc_eq hs₁.inv o.chars (two_pow_lt_addressLimit hl.length_lt hrv) with
    heq₂ | ⟨h₂, p, heq₂, hi₂, hb₂, hm₂, hk₂⟩
  · exact ⟨h₁, none, by rw [heq₂], .same hs₁ (hsh.store_eq hs.inv) hsh.emptyString _,
      fun ht => ht.shortens hsh⟩
  · -- neither the characters of left nor those of right are in the new buffer
    obtain ⟨h₃, heq₃, hi₃, hb₃, hm₃⟩ := strncpy_eq hi₂ hm₂ (hi₂.within _)
      (hc.sources.mono fun q n z hz => hb₂.holds q n z (hk₂ q n z hz) hz) (by simp; omega)
    have hr₃ : h₃.Sources (.at rs) rv := hr₁.mono fun q n z hz =>
      (hb₂.trans hb₃).holds q n z (hk₂ q n z hz) hz
    obtain ⟨h₄, heq₄, hi₄, hb₄, hm₄⟩ := strncpy_eq hi₃ hm₃ (hi₃.within _) hr₃ (by simp)
    obtain ⟨h₅, heq₅, hi₅, hb₅, hm₅⟩ := terminate_eq hi₄ hm₄ (hi₄.within _) (by simp)
    have hb := ((hb₂.trans hb₃).trans hb₄).trans hb₅
    simp only [List.nil_append, List.length_nil, Nat.add_zero, List.length_append] at *
    obtain ⟨h', r, heq', hy, hterm⟩ := newStringOrFree_eq (v := lv ++ rv) hi₅
      (hb.locksFlat hs₁.flat) o
      (fun rs hrs r hr => by rw [hb.things, hsh.live]; exact hroots rs hrs r hr) hm₅
      true false nofun
    refine ⟨h', r, ?_, (hy.of_store hb.store hb.emptyString).of_store (hsh.store_eq hs.inv)
      hsh.emptyString, fun ht => hterm fun x => (ht.shortens hsh x).beside hb fun t ht hr => ?_⟩
    · simp only [List.length_append] at heq'
      simp [heq₂, heq₃, heq₄, heq₅, heq']
    · exact hi₂.loose p x t rfl (hb₂.things ▸ ht) hr

/-- The strings with nested locks, and the empty string, are locked. -/
theorem Inv.isLocked (hi : h.Inv w l) (ht : h.things s = some t)
    (hs : 0 < h.locks s ∨ s = h.emptyString) : t.isLocked = true := by
  rcases hs with hs | rfl
  · obtain ⟨t', ht', hl⟩ := hi.locks s hs
    obtain rfl := Option.some.inj (ht.symm.trans ht')
    exact hl
  · obtain ⟨_, t', ht', hl, _⟩ := hi.empty
    obtain rfl := Option.some.inj (ht.symm.trans ht')
    exact hl

/-- **A flat string keeps its value when its buffer is moved**, and so do the strings that
depend on it. -/
theorem Sound.regrow (hs : h.Sound w) {left ls m n : ℕ} {lv : List UInt16}
    (ht : h.things left = some t) (hr : t.ref = .chars ls) (hlen : t.length = lv.length)
    (hlt : lv.length < 2 ^ (2 * w)) (hm : h.mem.Holds ls m lv) (hlm : lv.length < m)
    (hn : lv.length < n) (hf : (h.mem.drop ls m).Fits (addressLimit w) s n) :
    (h.rewrite (h.mem.moved ls m s n) left { t with ref := .chars s }).Sound w ∧
      (h.rewrite (h.mem.moved ls m s n) left { t with ref := .chars s }).store w = h.store w ∧
      ∀ x, x ≠ left → h.Term x →
        (h.rewrite (h.mem.moved ls m s n) left { t with ref := .chars s }).Term x := by
  have hi := hs.inv
  have hm' : (h.mem.moved ls m s n).Holds s n lv := hm.moved (by omega)
  -- the buffers of the other strings are elsewhere, before and after
  have hapart : ∀ x t' p, x ≠ left → h.things x = some t' → t'.ref = .chars p →
      p ≠ ls ∧ p ≠ s := by
    intro x t' p hx ht' hr'
    have hne : p ≠ ls := fun e => hx (hi.owner x left t' t p ht' ht hr' (e ▸ hr))
    obtain ⟨k, hb⟩ := hi.block_of_ref ht' hr'
    refine ⟨hne, fun e => ?_⟩
    have hnone := hf.block_eq_none (hi.mem.drop hm.block)
    simp only [Mem.drop] at hnone
    rw [if_neg (e ▸ hne), ← e, hb] at hnone
    cases hnone
  have hmoved : Rewritable w none h (h.mem.moved ls m s n) left { t with ref := .chars s } :=
    { live := by simp [ht]
      wf := hi.mem.moved hm.block hf
      below := fun p k hb => by
        rw [Mem.moved_block] at hb
        split_ifs at hb with h₁ h₂
        · obtain rfl := Option.some.inj hb
          exact h₁ ▸ hf.2.2.1
        · exact hi.below p k hb
      value := fun v hv => by
        have hlv : v = lv := hv.unique ⟨0, .flat ht hr hlen hlt hlm hm⟩
        exact ⟨0, .flat (t := { t with ref := .chars s }) rewrite_self rfl
          (by rw [hlv]; exact hlen) (hlv ▸ hlt) (hlv ▸ hn) (hlv ▸ hm')⟩
      holds := fun x t' p k v hx ht' hr' hh =>
        hh.moved_of_ne hi.mem hm.block hf (hapart x t' p hx ht' hr').1
      owned := fun p k hb => by
        rw [Mem.moved_block] at hb
        split_ifs at hb with h₁ h₂
        · exact .inr (.inl (by rw [h₁]))
        · obtain ⟨x, t', ht', hr'⟩ := (hi.owned p k hb).resolve_left (Option.some_ne_none p).symm
          refine .inr (.inr ⟨x, t', ?_, ht', hr'⟩)
          rintro rfl
          obtain rfl := Option.some.inj (ht.symm.trans ht')
          exact h₂ (StrRef.chars.inj (hr'.symm.trans hr))
      apart := fun x t' p hx ht' hr' =>
        ⟨fun e => (hapart x t' p hx ht' hr').2 (StrRef.chars.inj e).symm,
          (Option.some_ne_none p).symm⟩
      loose := fun p hp => by cases hp
      locked := fun hl => show t.isLocked = true from hi.isLocked ht hl
      flat := hs.flat left t ht }
  obtain ⟨hi', hf', hst, hterm⟩ := hi.rewrite hs.flat hmoved
  exact ⟨⟨hi', hf'⟩, hst, hterm⟩

/-- The heap where a new string takes over the buffer of a flat one, which is a prefix of
it from then on. -/
def handOver (w : ℕ) (h : StrHeap) (left str p n : ℕ) (t : StrThing) : StrHeap :=
  (h.add str ⟨n, .chars p, true, false⟩).set left
    { t with length := prefixLength w t.length, ref := .base str }

/-- `left`, of value `lv`, has handed its buffer over to the new string `str`. -/
structure HandedOver (w : ℕ) (h h' : StrHeap) (left str p n : ℕ) (t : StrThing)
    (lv rv : List UInt16) : Prop where
  eq : h' = h.handOver w left str p (lv ++ rv).length t
  thing : h.things left = some t
  ref : t.ref = .chars p
  length : t.length = lv.length
  isMutable : t.isMutable = true
  pos : 0 < lv.length
  holds : h.mem.Holds p n (lv ++ rv ++ [0])
  lt : (lv ++ rv).length < 2 ^ (2 * w)
  new : h.things str = none

section HandedOver

variable {left str : ℕ} {lv rv : List UInt16}

/-- The new string is another than the left operand. -/
theorem HandedOver.ne (ho : HandedOver w h h' left str p n t lv rv) : left ≠ str := fun e =>
  Option.some_ne_none t (ho.thing.symm.trans (e ▸ ho.new))

/-- No string that was there is the new one. -/
theorem HandedOver.old (ho : HandedOver w h h' left str p n t lv rv) (hx : h.things x = some t') :
    x ≠ str := fun e => by
  rw [e, ho.new] at hx
  cases hx

/-- The left operand is a prefix of the new string now. -/
theorem HandedOver.things_left (ho : HandedOver w h h' left str p n t lv rv) :
    h'.things left = some { t with length := prefixLength w t.length, ref := .base str } := by
  rw [ho.eq]
  simp [StrHeap.handOver, StrHeap.set]

/-- The new string is flat, and its buffer is the one that was grown. -/
theorem HandedOver.things_str (ho : HandedOver w h h' left str p n t lv rv) :
    h'.things str = some ⟨(lv ++ rv).length, .chars p, true, false⟩ := by
  rw [ho.eq]
  simp [StrHeap.handOver, StrHeap.add, StrHeap.set, ho.ne.symm]

/-- The other strings are as they were. -/
theorem HandedOver.things_other (ho : HandedOver w h h' left str p n t lv rv) (hx : x ≠ left)
    (hx' : x ≠ str) : h'.things x = h.things x := by
  rw [ho.eq]
  simp [StrHeap.handOver, StrHeap.add, StrHeap.set, hx, hx']

/-- Only words of strings change, the memory does not. -/
theorem HandedOver.mem (ho : HandedOver w h h' left str p n t lv rv) : h'.mem = h.mem := by
  rw [ho.eq]
  rfl

/-- The new string is the concatenation. -/
theorem HandedOver.denotes_str (ho : HandedOver w h h' left str p n t lv rv) :
    h'.Denotes w 0 str (lv ++ rv) := by
  refine .flat ho.things_str rfl rfl ho.lt ?_ (ho.mem ▸ ho.holds.front)
  have := ho.holds.length_le
  simp at this ⊢
  omega

/-- The left operand keeps its value, as a prefix. -/
theorem HandedOver.value_left (ho : HandedOver w h h' left str p n t lv rv) :
    h'.Value w left lv := by
  have hlv := ho.lt
  have hlen := ho.length
  have hpos := ho.pos
  simp at hlv
  have hd : h'.Denotes w 1 left (((lv ++ rv).drop 0).take t.length) :=
    .dep ho.things_left rfl ho.isMutable (.front (by omega)) (by omega) (by simp; omega)
      ho.denotes_str
  exact ⟨1, by simpa [hlen] using hd⟩

/-- No string loses its value. -/
theorem HandedOver.value (ho : HandedOver w h h' left str p n t lv rv) (hx : h.Value w x v) :
    h'.Value w x v := by
  have hlv := ho.lt
  simp at hlv
  obtain ⟨d, hd⟩ := hx
  refine hd.transfer (X := (· = left)) ?_ (fun x t' hx ht' => ?_) ?_
  · rintro x v rfl hv
    have hn := ho.holds.length_le
    simp at hn
    rw [hv.unique ⟨0, .flat ho.thing ho.ref ho.length (by omega) (by omega) ho.holds.front.front⟩]
    exact ho.value_left
  · rw [ho.things_other hx (ho.old ht'), ht']
  · intro _ _ _ _ _ _ _ hh
    exact ho.mem ▸ hh

/-- The strings are those that were there, and the new one. -/
theorem HandedOver.live (ho : HandedOver w h h' left str p n t lv rv) (hx : x ≠ str)
    (hx' : (h'.things x).isSome) : (h.things x).isSome := by
  by_cases hxl : x = left
  · simp [hxl, ho.thing]
  · rwa [ho.things_other hxl hx] at hx'

/-- Locks and types of strings stay. -/
theorem HandedOver.flags (ho : HandedOver w h h' left str p n t lv rv)
    (ht' : h.things x = some t') :
    ∃ t'', h'.things x = some t'' ∧ t''.isLocked = t'.isLocked ∧ t''.isMutable = t'.isMutable := by
  by_cases hxl : x = left
  · subst hxl
    obtain rfl := Option.some.inj (ho.thing.symm.trans ht')
    exact ⟨_, ho.things_left, rfl, rfl⟩
  · exact ⟨t', (ho.things_other hxl (ho.old ht')).trans ht', rfl, rfl⟩

/-- The buffer was `left`'s, and is the new string's. -/
theorem HandedOver.owner (ho : HandedOver w h h' left str p n t lv rv) (hi : h.Inv w none) {q : ℕ}
    (ht' : h'.things x = some t') (hr' : t'.ref = .chars q) :
    x = str ∧ q = p ∨ x ≠ left ∧ x ≠ str ∧ h.things x = some t' ∧ q ≠ p := by
  by_cases hx : x = str
  · subst hx
    obtain rfl := Option.some.inj (ho.things_str.symm.trans ht')
    exact .inl ⟨rfl, (StrRef.chars.inj hr').symm⟩
  · by_cases hxl : x = left
    · subst hxl
      obtain rfl := Option.some.inj (ho.things_left.symm.trans ht')
      cases hr'
    · rw [ho.things_other hxl hx] at ht'
      exact .inr ⟨hxl, hx, ht', fun e =>
        hxl (hi.owner x left t' t p ht' ho.thing (e ▸ hr') ho.ref)⟩

/-- The heap keeps the invariant: the buffer that had no owner has one again. -/
theorem HandedOver.inv (ho : HandedOver w h h' left str p n t lv rv) (hi : h.Inv w none) :
    h'.Inv w none := by
  refine ⟨ho.mem ▸ hi.mem, ho.mem ▸ hi.below, fun x hx => ?_, fun x hx => ?_, ?_, ?_,
    (fun _ _ _ hp => by cases hp), fun x hx => ?_, ?_⟩
  · have htop : h'.top = max h.top (str + 1) := by
      rw [ho.eq]
      rfl
    rw [htop]
    by_cases hxs : x = str
    · omega
    · have := hi.top x (ho.live hxs hx)
      omega
  · by_cases hxs : x = str
    · subst hxs
      exact ⟨_, 0, ho.denotes_str⟩
    · obtain ⟨v, hv⟩ := hi.value x (ho.live hxs hx)
      exact ⟨v, ho.value hv⟩
  · intro x y t₁ t₂ q h₁ h₂ hr₁ hr₂
    rcases ho.owner hi h₁ hr₁ with ⟨rfl, hq⟩ | ⟨_, _, h₁', hq⟩ <;>
      rcases ho.owner hi h₂ hr₂ with ⟨rfl, hq'⟩ | ⟨_, _, h₂', hq'⟩
    · rfl
    · exact absurd hq hq'
    · exact absurd hq' hq
    · exact hi.owner x y t₁ t₂ q h₁' h₂' hr₁ hr₂
  · intro q k hb
    rw [ho.mem] at hb
    obtain ⟨x, t', ht', hr'⟩ := (hi.owned q k hb).resolve_left (Option.some_ne_none q).symm
    refine .inr ?_
    by_cases hxl : x = left
    · subst hxl
      obtain rfl := Option.some.inj (ho.thing.symm.trans ht')
      exact ⟨str, _, ho.things_str, by rw [StrRef.chars.inj (ho.ref.symm.trans hr')]⟩
    · exact ⟨x, t', (ho.things_other hxl (ho.old ht')).trans ht', hr'⟩
  · have hlocks : h'.locks = h.locks := by
      rw [ho.eq]
      rfl
    rw [hlocks] at hx
    obtain ⟨t', ht', hl'⟩ := hi.locks x hx
    obtain ⟨t'', ht'', hl'', _⟩ := ho.flags ht'
    exact ⟨t'', ht'', hl''.trans hl'⟩
  · have hempty : h'.emptyString = h.emptyString := by
      rw [ho.eq]
      rfl
    rw [hempty]
    obtain ⟨hv, t', ht', hl', hm₀⟩ := hi.empty
    obtain ⟨t'', ht'', hl'', hm''⟩ := ho.flags ht'
    exact ⟨ho.value hv, t'', ht'', hl''.trans hl', hm''.trans hm₀⟩

/-- Locks are still on strings that stay flat only. -/
theorem HandedOver.locksFlat (ho : HandedOver w h h' left str p n t lv rv) (hf : h.LocksFlat) :
    h'.LocksFlat := by
  intro x t' ht' hl'
  by_cases hx : x = str
  · subst hx
    obtain rfl := Option.some.inj (ho.things_str.symm.trans ht')
    cases hl'
  · by_cases hxl : x = left
    · subst hxl
      obtain rfl := Option.some.inj (ho.things_left.symm.trans ht')
      exact hf x t ho.thing hl'
    · exact hf x t' (ho.things_other hxl hx ▸ ht') hl'

/-- The values are those before, and the new one. -/
theorem HandedOver.store (ho : HandedOver w h h' left str p n t lv rv) (hi : h.Inv w none)
    (x : ℕ) : h'.store w x = if x = str then some (lv ++ rv) else h.store w x := by
  refine Option.ext fun v => ?_
  by_cases hx : x = str
  · rw [if_pos hx, store_eq_some_iff, Option.some.injEq, hx]
    exact ⟨fun hv => Value.unique ⟨0, ho.denotes_str⟩ hv, fun e => e ▸ ⟨0, ho.denotes_str⟩⟩
  · rw [if_neg hx, store_eq_some_iff, store_eq_some_iff]
    exact hi.value_iff (fun v => ho.value) (ho.live hx)

/-- The grown buffer ends in a zero, as the others do. -/
theorem HandedOver.terminated (ho : HandedOver w h h' left str p n t lv rv) (hi : h.Inv w none)
    (hT : ∀ x, x ≠ left → h.Term x) : h'.Terminated := by
  intro x t' q ht' hr'
  rw [ho.mem]
  rcases ho.owner hi ht' hr' with ⟨rfl, rfl⟩ | ⟨hxl, _, ht₀, _⟩
  · obtain rfl := Option.some.inj (ho.things_str.symm.trans ht')
    exact ⟨n, lv ++ rv, rfl, ho.holds⟩
  · exact hT x hxl t' q ht₀ hr'

end HandedOver

/-- **A flat string keeps its value when its buffer becomes another's**, of which it is a
prefix. -/
theorem Sound.handOver (hs : h.Sound w) {left str : ℕ} {lv rv : List UInt16}
    (ht : h.things left = some t) (hr : t.ref = .chars p) (hlen : t.length = lv.length)
    (hmut : t.isMutable = true) (hpos : 0 < lv.length) (hz : h.mem.Holds p n (lv ++ rv ++ [0]))
    (hlt : (lv ++ rv).length < 2 ^ (2 * w)) (hnew : h.things str = none) :
    (h.handOver w left str p (lv ++ rv).length t).Sound w ∧
      (∀ x, (h.handOver w left str p (lv ++ rv).length t).store w x =
        if x = str then some (lv ++ rv) else h.store w x) ∧
      ((∀ x, x ≠ left → h.Term x) →
        (h.handOver w left str p (lv ++ rv).length t).Terminated) := by
  have ho : HandedOver w h _ left str p n t lv rv :=
    ⟨rfl, ht, hr, hlen, hmut, hpos, hz, hlt, hnew⟩
  exact ⟨⟨ho.inv hs.inv, ho.locksFlat hs.flat⟩, ho.store hs.inv, ho.terminated hs.inv⟩

/-- How far `right`'s characters are into a buffer that they are in. -/
theorem lrdist_of_in {ls rs j : ℕ} (hrs : rs = ls + j) (hj : j < sizeT w) :
    (rs + sizeT w - ls) % sizeT w = j := by
  rw [hrs, show ls + j + sizeT w - ls = j + sizeT w by omega, Nat.add_mod_right,
    Nat.mod_eq_of_lt hj]

/-- Characters that are not in the buffer are too far away. -/
theorem le_lrdist_of_out {ls rs ln : ℕ} (hls : ls < addressLimit w) (hrs : rs < addressLimit w)
    (hln : ln ≤ addressLimit w) (hout : rs < ls ∨ ls + ln ≤ rs) :
    ln ≤ (rs + sizeT w - ls) % sizeT w := by
  have hS : sizeT w = 2 * addressLimit w := by
    rw [sizeT, addressLimit, show 2 * w + 2 = 2 * w + 1 + 1 from rfl, Nat.pow_succ]
    omega
  rcases hout with h | h
  · rw [Nat.mod_eq_of_lt (by omega)]
    omega
  · rw [show rs + sizeT w - ls = rs - ls + sizeT w by omega, Nat.add_mod_right,
      Nat.mod_eq_of_lt (by omega)]
    omega

/-- **The clean-up leaves `left` what it is**, and what is behind its characters where it
was. -/
theorem shrinkBack_eq (hs : h.Sound w) (o : StrAnswers) {left : ℕ} (ht : h.things left = some t)
    (hr : t.ref = .chars s) (hv : h.Value w left v) {c : UInt16} (hc : h.mem.Holds s n (v ++ [c])) :
    ∃ h', h.shrinkBack w o left v.length s = some (h', none) ∧ h'.Sound w ∧
      h'.store w = h.store w ∧ h'.emptyString = h.emptyString ∧
      ((∀ x, x ≠ left → h.Term x) → (h'.Terminated ↔ c = 0)) := by
  obtain ⟨p, m, v', hr', hlen, hlm, hlt, _, hm, hd⟩ | ⟨_, _, _, _, _, hr', _⟩ := hs.inv.cases ht
  case inr => rw [hr] at hr'; cases hr'
  obtain rfl := StrRef.chars.inj (hr.symm.trans hr')
  obtain rfl := Value.unique ⟨0, hd⟩ hv
  have hsize : v'.length + 1 < addressLimit w :=
    two_pow_lt_addressLimit (j := 0) hlt (Nat.two_pow_pos _)
  have hiff : ∀ (g : StrHeap) (q k : ℕ), g.things left = some { t with ref := .chars q } →
      g.mem.Holds q k (v' ++ [c]) → (∀ x, x ≠ left → g.Term x) → (g.Terminated ↔ c = 0) := by
    intro g q k hg hq hT
    constructor
    · intro hall
      obtain ⟨k', z, hz, hmz⟩ := hall left _ q hg rfl
      have hzl : z.length = v'.length := hz.trans hlen
      have h₁ := hmz.cell v'.length (by simp [hzl])
      have h₂ := hq.cell v'.length (by simp)
      rw [h₁] at h₂
      simpa [hzl, List.getElem_append_right, eq_comm] using h₂
    · rintro rfl x t' p' ht' hr''
      by_cases hx : x = left
      · subst hx
        obtain rfl := Option.some.inj (hg.symm.trans ht')
        obtain rfl := StrRef.chars.inj hr''
        exact ⟨k, v', hlen.symm, hq⟩
      · exact hT x hx t' p' ht' hr''
  simp only [shrinkBack, ht, StrHeap.realloc, jschars_eq hsize, Option.bind_eq_bind,
    Option.bind_some]
  rcases Mem.realloc_cases hm.block (addressLimit w) o.back (v'.length + 1) with
    heq | ⟨s', hf, heq⟩
  · exact ⟨h, by rw [heq]; rfl, hs, rfl, rfl, hiff h s n (by rw [ht, ← hr]) hc⟩
  · obtain ⟨hs', hst, hterm⟩ := hs.regrow ht hr hlen hlt hm hlm (by omega) hf
    have hc' : h.mem.Holds s m (v' ++ [c]) := by
      obtain rfl := Option.some.inj (hm.block.symm.trans hc.block)
      exact hc
    exact ⟨_, by rw [heq]; rfl, hs', hst, rfl, fun hT => hiff _ s' (v'.length + 1)
      rewrite_self (hc'.moved (by simp)) fun x hx => hterm x hx (hT x hx)⟩

/-- Where there is no new string, `left` is what it was, with the first character of `rv`
behind it. -/
theorem shrinkBack_yields {roots : Option (List ℕ)} {left : ℕ} {lv rv : List UInt16}
    (hs : h'.Sound w) (hnext : StrStore.Next (h.store w) (h'.store w) roots none)
    (he : h'.emptyString = h.emptyString) (o : StrAnswers) (ht : h'.things left = some t)
    (hr : t.ref = .chars s) (hv : h'.Value w left lv) (hrv : rv ≠ [])
    (hm : h'.mem.Holds s n (lv ++ rv ++ [0])) (hterm : ∀ x, x ≠ left → h.Term x → h'.Term x) :
    ∃ h'' r, h'.shrinkBack w o left lv.length s = some (h'', r) ∧
      Yields w roots h h'' (r.map (·, lv ++ rv)) ∧
      ((∀ x, x ≠ left → h.Term x) → (h''.Terminated ↔ (r = none → rv.head? = some 0))) := by
  obtain ⟨c, rv', rfl⟩ := List.exists_cons_of_ne_nil hrv
  have hmc : h'.mem.Holds s n (lv ++ [c]) := by
    have happ : lv ++ c :: rv' ++ [0] = (lv ++ [c]) ++ (rv' ++ [0]) := by simp
    exact Mem.Holds.front (happ ▸ hm)
  obtain ⟨h'', heq, hs', hst', he', hiff⟩ := shrinkBack_eq hs o ht hr hv hmc
  refine ⟨h'', none, heq, ⟨hs', hst' ▸ hnext, he'.trans he⟩, fun hT => ?_⟩
  rw [hiff fun x hx => hterm x hx (hT x hx)]
  simp

/-- **`js_ConcatStrings` into a buffer of `left` that is large enough.** -/
theorem concatInto_eq (hs : h.Sound w) (o : StrAnswers)
    (hroots : ∀ rs, o.gc = some rs → ∀ r ∈ rs, (h.things r).isSome) {left rs : ℕ}
    (hleft : ∀ rs, o.gc = some rs → left ∈ rs) {lv rv : List UInt16}
    (ht : h.things left = some t) (hr : t.ref = .chars s) (hmut : t.isMutable = true)
    (hlen : t.length = lv.length) (hl : h.Value w left lv) (hpos : 0 < lv.length)
    (hrv : rv ≠ []) (hm : h.mem.Holds s (lv.length + rv.length + 1) lv)
    (hsrc : h.Sources (.at rs) rv) :
    ∃ h' r, h.concatInto w o left lv.length s rs rv.length = some (h', r) ∧
      Yields w o.gc h h' (r.map (·, lv ++ rv)) ∧
      ((∀ x, x ≠ left → h.Term x) → (h'.Terminated ↔ (r = none → rv.head? = some 0))) := by
  have hin : h.Within s lv.length := by
    intro x t' ht' hr'
    obtain rfl := hs.inv.owner x left t' t s ht' ht hr' hr
    obtain rfl := Option.some.inj (ht.symm.trans ht')
    exact hlen.le
  obtain ⟨h₂, heq₂, hi₂, hb₂, hm₂⟩ := strncpy_eq hs.inv hm hin hsrc (by omega)
  have hin₂ : h₂.Within s (lv ++ rv).length := by
    intro x t' ht' hr'
    have := hin x t' (hb₂.things ▸ ht') hr'
    simp
    omega
  obtain ⟨h₃, heq₃, hi₃, hb₃, hm₃⟩ := terminate_eq hi₂ hm₂ hin₂ (by simp)
  have hb := hb₂.trans hb₃
  have ht₃ : h₃.things left = some t := by rw [hb.things, ht]
  have hs₃ : h₃.Sound w := ⟨hi₃, hb.locksFlat hs.flat⟩
  have hv₃ : h₃.Value w left lv := by
    rw [← store_eq_some_iff, hb.store, store_eq_some_iff]
    exact hl
  have hT₃ : ∀ x, x ≠ left → h.Term x → h₃.Term x := fun x hx hT => hT.beside hb fun t' ht' hr' =>
    hx (hs.inv.owner x left t' t s ht' ht hr' hr)
  simp only [List.length_append] at heq₃
  unfold concatInto newString
  simp only [heq₂, heq₃, Option.bind_eq_bind, Option.bind_some]
  by_cases hmask : lv.length + rv.length > stringLengthMask w
  · rw [if_pos hmask]
    exact shrinkBack_yields hs₃ (by rw [hb.store]; exact .refl _ _) hb.emptyString o ht₃ hr hv₃
      hrv hm₃ hT₃
  · rw [if_neg hmask]
    have hsum : (lv ++ rv).length < 2 ^ (2 * w) := by
      have := Nat.two_pow_pos (2 * w)
      simp only [stringLengthMask] at hmask
      simp
      omega
    obtain ⟨h₄, hi₄, hf₄, hs₄, hnew⟩ := newGCThing_eq hs₃.inv hs₃.flat o
      (fun rs hrs r hr => by rw [hb.things]; exact hroots rs hrs r hr)
      ⟨lv.length + rv.length, .chars s, true, false⟩
    have hlive : (h₄.things left).isSome := hs₄.root left (by simp [ht₃]) hleft
    have ht₄ : h₄.things left = some t := by
      obtain ⟨t', ht'⟩ := Option.isSome_iff_exists.1 hlive
      rw [ht', ← hs₄.thing left t' ht', ht₃]
    have hv₄ := hs₄.value left lv hlive hv₃
    have hn₄ : StrStore.Next (h.store w) (h₄.store w) o.gc none := hb.store ▸ hs₄.next hs₃.inv
    have hm₄ : h₄.mem.Holds s (lv.length + rv.length + 1) (lv ++ rv ++ [0]) := by
      refine hs₄.holds s _ _ (fun x t' ht' hr' => ?_) hm₃
      obtain rfl := hi₃.owner x left t' t s ht' ht₃ hr' hr
      exact hlive
    have hT₄ : ∀ x, x ≠ left → h.Term x → h₄.Term x := fun x hx hT =>
      (hT₃ x hx hT).survives hs₄ hi₃
    rcases hnew with heq₄ | ⟨str, hnone, heq₄⟩
    · simp only [heq₄, Option.bind_some]
      exact shrinkBack_yields ⟨hi₄, hf₄⟩ hn₄ (hs₄.emptyString.trans hb.emptyString) o ht₄ hr hv₄
        hrv hm₄ hT₄
    · have hne : left ≠ str := fun e => by rw [← e, ht₄] at hnone; cases hnone
      obtain ⟨hs', hst', hT'⟩ := Sound.handOver ⟨hi₄, hf₄⟩ ht₄ hr hlen hmut hpos hm₄ hsum hnone
      refine ⟨h₄.handOver w left str s (lv ++ rv).length t, some str, ?_, ⟨hs',
        .add hn₄ (store_eq_none hnone) hst', hs₄.emptyString.trans hb.emptyString⟩, fun hT => ?_⟩
      · have hget : (h₄.add str ⟨lv.length + rv.length, .chars s, true, false⟩).things left =
            some t := by
          simp [StrHeap.add, StrHeap.set, hne, ht₄]
        simp [heq₄, hget, StrHeap.handOver, hlen]
      · exact iff_of_true (hT' fun x hx => hT₄ x hx (hT x hx)) fun e => by cases e

/-- `left` has a buffer that may grow, and `JS_realloc` finds `n` `jschar`s for it. -/
def Grows (w : ℕ) (h : StrHeap) (o : StrAnswers) (left n : ℕ) : Prop :=
  ∃ t p, h.things left = some t ∧ t.isMutable = true ∧ t.ref = .chars p ∧
    h.realloc w p o.chars n ≠ some none

/-- `JS_realloc` of a number of `jschar`s answers NULL where the memory does. -/
theorem realloc_eq_null_iff (h : StrHeap) (p : ℕ) (answer : Option ℕ) (n : ℕ) :
    h.realloc w p answer n = some none ↔
      h.mem.realloc (addressLimit w) p answer (jschars w n) = some none := by
  rw [StrHeap.realloc]
  cases h.mem.realloc (addressLimit w) p answer (jschars w n) with
  | none => simp
  | some r => cases r <;> simp

/-- For a flat string that may grow it is the answer of `realloc`. -/
theorem grows_iff_of_chars {left : ℕ} (ht : h.things left = some t) (hmut : t.isMutable = true)
    (hr : t.ref = .chars p) (o : StrAnswers) (hn : n < addressLimit w) :
    h.Grows w o left n ↔ h.mem.realloc (addressLimit w) p o.chars n ≠ some none := by
  have hre := h.realloc_eq_null_iff (w := w) p o.chars n
  rw [jschars_eq hn] at hre
  constructor
  · rintro ⟨t', p', ht', _, hr', hne⟩
    obtain rfl := Option.some.inj (ht.symm.trans ht')
    obtain rfl := StrRef.chars.inj (hr.symm.trans hr')
    exact fun e => hne (hre.2 e)
  · exact fun hne => ⟨t, p, ht, hmut, hr, fun e => hne (hre.1 e)⟩

/-- Shortening chains does not come into it. -/
theorem Shortens.grows_iff (hs : h.Shortens w h') (o : StrAnswers) (left n : ℕ) :
    h'.Grows w o left n ↔ h.Grows w o left n := by
  have hre : ∀ p, h'.realloc w p o.chars n = some none ↔ h.realloc w p o.chars n = some none := by
    intro p
    rw [realloc_eq_null_iff, realloc_eq_null_iff, hs.mem]
  constructor
  · rintro ⟨t, p, ht, hm, hr, hne⟩
    exact ⟨t, p, hs.chars ht hr, hm, hr, fun e => hne ((hre p).2 e)⟩
  · rintro ⟨t, p, ht, hm, hr, hne⟩
    exact ⟨t, p, hs.flat ht hr, hm, hr, fun e => hne ((hre p).1 e)⟩

/-- Wherever `right`'s characters were when the buffer of `left` was moved to `s`, they are
where they are copied from. -/
theorem CharsAt.sources_moved (hi : h.Inv w l) {left ls m rs base : ℕ} {rv : List UInt16}
    (hc : h.CharsAt w rs base k rv u) (ht : h.things left = some t) (hr : t.ref = .chars ls)
    (hm : h.mem.Holds ls m v) (hlm : v.length < m) (hd : h.Denotes w 0 left v)
    (hrv : 0 < rv.length)
    (hf : (h.mem.drop ls m).Fits (addressLimit w) s n) (hlen : v.length < n)
    (hsize : v.length + rv.length + 1 < addressLimit w) :
    (h.rewrite (h.mem.moved ls m s n) left { t with ref := .chars s }).Sources
      (.at (if (rs + sizeT w - ls) % sizeT w < v.length then
        s + (rs + sizeT w - ls) % sizeT w else rs)) rv := by
  obtain ⟨hfound, tb, q, htb, hrq, hrsq⟩ := hc
  have hle := hfound.le
  by_cases hb : base = left
  · subst hb
    obtain rfl := Option.some.inj (ht.symm.trans htb)
    obtain rfl := StrRef.chars.inj (hr.symm.trans hrq)
    obtain rfl := (hfound.flat.unique hd).2
    have hk : k < sizeT w := by
      have : addressLimit w ≤ sizeT w := Nat.pow_le_pow_right (by omega) (by omega)
      omega
    rw [lrdist_of_in hrsq hk, if_pos (by omega)]
    exact ⟨s, _, u, k, hm.moved (by omega), rfl, hle, hfound.eq.symm⟩
  · cases hfound.flat with
    | @flat _ q' n' tb' _ htb' hrq' hlq hltq hnq hmq =>
        obtain rfl := Option.some.inj (htb.symm.trans htb')
        obtain rfl := StrRef.chars.inj (hrq.symm.trans hrq')
        have hne : q ≠ ls := fun e => hb (hi.owner base left tb t q htb ht hrq (e ▸ hr))
        have h₁ := hi.below ls m hm.block
        have h₂ := hi.below q n' hmq.block
        have h₃ := hi.mem.apart q n' ls m hmq.block hm.block hne
        have hout : v.length ≤ (rs + sizeT w - ls) % sizeT w := le_lrdist_of_out (by omega)
          (by omega) (by omega) (by omega)
        rw [if_neg (by omega), hrsq]
        exact ⟨q, n', u, k, hmq.moved_of_ne hi.mem hm.block hf hne, rfl, hle, hfound.eq.symm⟩

/-- **`js_ConcatStrings` into the buffer of `left`.** -/
theorem concatGrow_eq (hs : h.Sound w) (o : StrAnswers)
    (hroots : ∀ rs, o.gc = some rs → ∀ r ∈ rs, (h.things r).isSome) {left rs base : ℕ}
    (hleft : ∀ rs, o.gc = some rs → left ∈ rs) {lv rv : List UInt16}
    (ht : h.things left = some t) (hflat : t.isDependent w = false) (hmut : t.isMutable = true)
    (hl : h.Value w left lv) (hpos : 0 < lv.length) (hc : h.CharsAt w rs base k rv u)
    (hrv : rv ≠ []) :
    ∃ h' r, h.concatGrow w o left lv.length rs rv.length = some (h', r) ∧
      Yields w o.gc h h' (r.map (·, lv ++ rv)) ∧
      (h.Terminated → (h'.Terminated ↔
        (r = none → h.Grows w o left (lv.length + rv.length + 1) → rv.head? = some 0))) := by
  have hi := hs.inv
  obtain ⟨ls, m, v, hr, hlen, hlm, hlt, _, hm, hd⟩ | ⟨_, _, _, _, _, _, _, _, _, _, hdep, _⟩ :=
    hi.cases ht
  case inr => rw [hflat] at hdep; cases hdep
  obtain rfl := Value.unique ⟨0, hd⟩ hl
  have hrvlt : rv.length < 2 ^ (2 * w) := by
    have := hc.found.length_lt
    omega
  have hsize := two_pow_lt_addressLimit hlt hrvlt
  have hrpos := List.length_pos_iff.2 hrv
  have hgrows := grows_iff_of_chars ht hmut hr o hsize
  unfold concatGrow
  simp only [ht, StrThing.chars, hr, Option.bind_eq_bind, Option.bind_some, StrHeap.realloc,
    jschars_eq hsize]
  rcases Mem.realloc_cases hm.block (addressLimit w) o.chars (v.length + rv.length + 1) with
    heq | ⟨s, hf, heq⟩
  · refine ⟨h, none, by rw [heq]; rfl, .same hs rfl rfl _, fun hT => iff_of_true hT ?_⟩
    intro _ hg
    exact absurd heq (hgrows.1 hg)
  · rw [heq]
    obtain ⟨hs₁, hst₁, hT₁⟩ := hs.regrow (n := v.length + rv.length + 1) ht hr hlen hlt hm hlm
      (by omega) hf
    have hm₁ : (h.mem.moved ls m s (v.length + rv.length + 1)).Holds s
        (v.length + rv.length + 1) v := hm.moved (by omega)
    have hsrc := hc.sources_moved hi ht hr hm hlm hd hrpos hf (by omega) hsize
    have hlive : ∀ x, (h.things x).isSome →
        ((h.rewrite (h.mem.moved ls m s (v.length + rv.length + 1)) left
          { t with ref := .chars s }).things x).isSome := by
      intro x hx
      rw [rewrite_things]
      split_ifs
      · rfl
      · exact hx
    obtain ⟨h', r, heq', hy, hiff⟩ := concatInto_eq hs₁ o
      (fun rs hrs r hr => hlive r (hroots rs hrs r hr)) hleft
      (t := { t with ref := .chars s }) rewrite_self rfl hmut hlen
      (by rw [← store_eq_some_iff, hst₁, store_eq_some_iff]; exact hl) hpos hrv hm₁ hsrc
    refine ⟨h', r, heq', hy.of_store hst₁ rfl, fun hT => ?_⟩
    rw [hiff fun x hx => hT₁ x hx (hT x)]
    have hg := hgrows.2 (by rw [heq]; simp)
    exact ⟨fun h₁ hr₁ _ => h₁ hr₁, fun h₁ hr₁ => h₁ hr₁ hg⟩

/-- **`js_ConcatStrings`** answers one of its operands where the other is empty, and else a
new string of the characters of both.  What it may spoil is the terminator of `left`: where
there is no string for the buffer that it has grown, `right`'s first character is left in
its place. -/
theorem concatStrings_eq (hs : h.Sound w) (o : StrAnswers)
    (hroots : ∀ rs, o.gc = some rs → ∀ r ∈ rs, (h.things r).isSome) {left right : ℕ}
    (hleft : ∀ rs, o.gc = some rs → left ∈ rs) {lv rv : List UInt16}
    (hl : h.Value w left lv) (hr : h.Value w right rv) :
    ∃ h' r, h.concatStrings w o left right = some (h', r) ∧
      (h.Terminated → (h'.Terminated ↔
        (r = none → h.Grows w o left (lv.length + rv.length + 1) → rv.head? = some 0))) ∧
      (Yields w o.gc h h' (r.map (·, lv ++ rv)) ∨
        Yields w none h h' none ∧ ∃ s, r = some s ∧ h'.Value w s (lv ++ rv)) := by
  obtain ⟨tr, htr⟩ := Option.isSome_iff_exists.1 hr.choose_spec.live
  have hrn := hr.choose_spec.stringLength htr
  obtain ⟨h₁, rs, base, k, u, heq, hsh, hc⟩ := stringChars_eq hs.inv hr
  have hs₁ : h₁.Sound w := ⟨hsh.inv hs.inv, hsh.locksFlat hs.flat⟩
  have hst₁ := hsh.store_eq hs.inv
  have hsame : Yields w none h h₁ none := .same hs₁ hst₁ hsh.emptyString _
  have hl₁ := hsh.value left lv hl
  obtain ⟨tl, htl⟩ := Option.isSome_iff_exists.1 hl₁.choose_spec.live
  have hln := hl₁.choose_spec.stringLength htl
  have hroots₁ : ∀ rs, o.gc = some rs → ∀ r ∈ rs, (h₁.things r).isSome := fun rs hrs r hr => by
    rw [hsh.live]
    exact hroots rs hrs r hr
  unfold concatStrings
  simp only [htr, heq, hrn, htl, hln, Option.bind_eq_bind, Option.bind_some,
    List.length_eq_zero_iff]
  by_cases hrv : rv = []
  · exact ⟨h₁, some left, by rw [if_pos hrv], fun hT => iff_of_true (hT.shortens hsh) nofun,
      .inr ⟨hsame, left, rfl, by simpa [hrv] using hl₁⟩⟩
  · rw [if_neg hrv]
    by_cases hlv : lv = []
    · exact ⟨h₁, some right, by rw [if_pos hlv], fun hT => iff_of_true (hT.shortens hsh) nofun,
        .inr ⟨hsame, right, rfl, by simpa [hlv] using hsh.value right rv hr⟩⟩
    · rw [if_neg hlv]
      by_cases hcopy : (tl.isDependent w || !tl.isMutable) = true
      · rw [if_pos hcopy]
        obtain ⟨h', r, heq', hy, hterm⟩ := concatCopy_eq hs₁ o hroots₁ hl₁ hc.sources hr.length_lt
        refine ⟨h', r, heq', fun hT => iff_of_true (hterm (hT.shortens hsh)) ?_,
          .inl (hy.of_store hst₁ hsh.emptyString)⟩
        -- there is no buffer that could grow
        rw [← hsh.grows_iff]
        rintro _ ⟨t, p, ht, hm, hr', _⟩
        obtain rfl := Option.some.inj (htl.symm.trans ht)
        rcases hs₁.inv.owns.kind left tl htl with ⟨_, b, hb⟩ | ⟨hf, _⟩
        · rw [hr'] at hb
          cases hb
        · simp [hf, hm] at hcopy
      · rw [if_neg hcopy]
        simp only [Bool.or_eq_true, Bool.not_eq_true', not_or, Bool.not_eq_true,
          Bool.not_eq_false] at hcopy
        obtain ⟨h', r, heq', hy, hiff⟩ := concatGrow_eq hs₁ o hroots₁ hleft htl hcopy.1 hcopy.2 hl₁
          (List.length_pos_iff.2 hlv) hc hrv
        refine ⟨h', r, heq', fun hT => ?_, .inl (hy.of_store hst₁ hsh.emptyString)⟩
        rw [hiff (hT.shortens hsh), hsh.grows_iff]

/-! ### Buffers of one's own -/

/-- `JSSTRING_CHARS` of a dependent string goes along its bases. -/
theorem stringChars_of_dependent (ht : h.things s = some t) (hd : t.isDependent w = true) :
    h.stringChars w s = h.strdepChars w s := by
  simp [stringChars, ht, hd]

/-- A dependent string is still one when its chain is shorter. -/
theorem Shortens.ref_base (hsh : h.Shortens w h') (ht : h.things s = some t)
    (hr : t.ref = .base b) (ht' : h'.things s = some t') : ∃ b', t'.ref = .base b' := by
  rcases hsh.thing s with e | ⟨a, a', _, ha', hreb⟩
  · obtain rfl := Option.some.inj ((e ▸ ht').symm.trans ht)
    exact ⟨b, hr⟩
  · obtain rfl := Option.some.inj (ht'.symm.trans ha')
    exact hreb.new.2

/-- A dependent string may take the buffer that is nobody's, when its characters are in it. -/
theorem Inv.own_buffer (hi : h.Inv w (some p)) (hf : h.LocksFlat) (ht : h.things s = some t)
    (hb : t.ref = .base b) (hv : h.Value w s v) (hn : v.length < n) (hm : h.mem.Holds p n v) :
    Rewritable w none h h.mem s { t with length := v.length, ref := .chars p } :=
  { live := by simp [ht]
    wf := hi.mem
    below := hi.below
    value := fun v' hv' => by
      rw [hv'.unique hv]
      exact ⟨0, .flat (t := { t with length := v.length, ref := .chars p })
        rewrite_self rfl rfl hv.length_lt hn hm⟩
    holds := fun _ _ _ _ _ _ _ _ hh => hh
    owned := fun p' k hk => by
      rcases hi.owned p' k hk with hl | ⟨x, t', ht', hr'⟩
      · exact .inr (.inl (by rw [Option.some.inj hl]))
      · refine .inr (.inr ⟨x, t', ?_, ht', hr'⟩)
        rintro rfl
        obtain rfl := Option.some.inj (ht.symm.trans ht')
        rw [hb] at hr'
        cases hr'
    apart := fun x t' p' _ ht' hr' =>
      ⟨fun e => hi.loose p x t' rfl ht' (StrRef.chars.inj e ▸ hr'),
        (Option.some_ne_none p').symm⟩
    loose := fun p hp => by cases hp
    locked := fun hl => show t.isLocked = true from hi.isLocked ht hl
    flat := hf s t ht }

/-- **`js_UndependString`** answers `NULL`, or where the characters are: in a buffer that is
the string's own from then on. -/
theorem undependString_eq (hs : h.Sound w) (answer : Option ℕ) (hv : h.Value w s v) :
    ∃ h' r, h.undependString w answer s = some (h', r) ∧ Yields w none h h' none ∧
      (h.Terminated → h'.Terminated) ∧ ∀ p, r = some p → ∃ t n, h'.things s = some t ∧
        t.ref = .chars p ∧ t.length = v.length ∧ v.length < n ∧ h'.mem.Holds p n v := by
  obtain ⟨t, ht⟩ := Option.isSome_iff_exists.1 hv.choose_spec.live
  have hlt := hv.length_lt
  unfold undependString
  simp only [ht, Option.bind_eq_bind, Option.bind_some]
  obtain ⟨p, n, v', hr, hlen, hn, _, hflat, hm, hd⟩ |
    ⟨d, b, k, n, u, hr, _, hw, _, hk, hdep, _, hd⟩ := hs.inv.cases ht
  · obtain rfl := Value.unique ⟨0, hd⟩ hv
    rw [if_neg (by simp [hflat])]
    refine ⟨h, some p, by simp [StrThing.chars, hr], .same hs rfl rfl _, id, fun q hq => ?_⟩
    obtain rfl := Option.some.inj hq
    exact ⟨t, n, ht, hr, hlen, hn, hm⟩
  · have hvn : v.length = n := by
      rw [← Value.unique ⟨_, hd⟩ hv]
      exact length_drop_take hk
    rw [if_pos hdep, hw.strdepLength, ← hvn]
    rcases malloc_eq hs.inv answer (two_pow_lt_addressLimit (j := 0) hlt (Nat.two_pow_pos _)) with
      heq | ⟨h₁, p, heq, hi₁, hb₁, hm₁, hk₁⟩
    · exact ⟨h, none, by simp only [Nat.add_zero] at heq; rw [heq], .same hs rfl rfl _, id,
        fun _ hp => by cases hp⟩
    · simp only [Nat.add_zero] at heq hm₁
      have hv₁ : h₁.Value w s v := by
        rw [← store_eq_some_iff, hb₁.store, store_eq_some_iff]
        exact hv
      have ht₁ : h₁.things s = some t := by rw [hb₁.things, ht]
      obtain ⟨h₂, q, base, k', u', heq₂, hsh, hc⟩ := stringChars_eq hi₁ hv₁
      rw [stringChars_of_dependent ht₁ hdep] at heq₂
      have hi₂ := hsh.inv hi₁
      obtain ⟨h₃, heq₃, hi₃, hb₃, hm₃⟩ := strncpy_eq hi₂ (hsh.mem ▸ hm₁) (hi₂.within _)
        hc.sources (by simp)
      obtain ⟨h₄, heq₄, hi₄, hb₄, hm₄⟩ := terminate_eq hi₃ hm₃ (hi₃.within _) (by simp)
      simp only [List.nil_append, List.length_nil, Nat.add_zero] at heq₃ heq₄ hm₄
      obtain ⟨t₂, ht₂, hmut₂, hlk₂⟩ := hsh.flags ht₁
      have ht₄ : h₄.things s = some t₂ := by rw [hb₄.things, hb₃.things, ht₂]
      have hf₄ := (hb₃.trans hb₄).locksFlat (hsh.locksFlat (hb₁.locksFlat hs.flat))
      have hst₄ : h₄.store w = h.store w :=
        (hb₃.trans hb₄).store.trans ((hsh.store_eq hi₁).trans hb₁.store)
      have hv₄ : h₄.Value w s v := by
        rw [← store_eq_some_iff, hst₄, store_eq_some_iff]
        exact hv
      have hm' : h₄.mem.Holds p (v.length + 1) v := hm₄.front
      obtain ⟨b₂, hr₂⟩ := hsh.ref_base ht₁ hr ht₂
      have hown := hi₄.own_buffer hf₄ ht₄ hr₂ hv₄ (Nat.lt_succ_self _) hm'
      obtain ⟨hi', hf', hst', hterm⟩ := hi₄.rewrite hf₄ hown
      refine ⟨_, some p, ?_, .same ⟨hi', hf'⟩ (hst'.trans hst₄)
        ((hb₃.trans hb₄).emptyString.trans (hsh.emptyString.trans hb₁.emptyString)) _,
        fun hT x => ?_, ?_⟩
      · simp [heq, heq₂, heq₃, heq₄, ht₄]
        rfl
      · have hT₂ : h₂.Terminated := Terminated.shortens (fun y => (hT y).beside hb₁
          fun t' ht' hr' => hi₁.loose p y t' rfl (hb₁.things ▸ ht') hr') hsh
        by_cases hx : x = s
        · subst hx
          intro t' q ht' hr'
          rw [rewrite_self] at ht'
          obtain rfl := Option.some.inj ht'
          obtain rfl := StrRef.chars.inj hr'
          exact ⟨_, v, rfl, hm₄⟩
        · exact hterm x hx ((hT₂ x).beside (hb₃.trans hb₄) fun t' ht' hr' =>
            hi₂.loose p x t' rfl ht' hr')
      · intro p' hp'
        obtain rfl := Option.some.inj hp'
        exact ⟨_, v.length + 1, rewrite_self, rfl, rfl, by omega, hm'⟩

end StrHeap

end ProntoScript
