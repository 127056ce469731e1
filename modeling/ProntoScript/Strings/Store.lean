/-
# The store that the heap of strings stands for

To a program a string is a value: what a string is once made it is for good, until the
collector finds that nobody can ask any more.  `StrStore` is that: a value for each string,
and `Next` says how it may change from one call to the next.  Strings may go, if there was
a collection and they were not among its roots; one may come; none changes.

Below are the ways a heap comes by its strings: a buffer is filled that is not yet a
string's, and becomes one's.
-/

import ProntoScript.Strings.Collect

namespace ProntoScript

open HeapBlocks

variable {w : ℕ}

/-- A value for each string. -/
abbrev StrStore := ℕ → Option (List UInt16)

/-- The stores that may follow: `roots` are those of the collection, where there was one,
and `new` is the new string, where there is one. -/
structure StrStore.Next (A A' : StrStore) (roots : Option (List ℕ))
    (new : Option (ℕ × List UInt16)) : Prop where
  old : ∀ x v, A' x = some v → A x = some v ∨ new = some (x, v)
  kept : ∀ x v, A x = some v → (∀ rs, roots = some rs → x ∈ rs) → A' x = some v
  made : ∀ x v, new = some (x, v) → A' x = some v
  fresh : ∀ x v, new = some (x, v) → (∀ rs, roots = some rs → x ∈ rs) → A x = none

/-- A store may stay as it is. -/
theorem StrStore.Next.refl (A : StrStore) (roots : Option (List ℕ)) :
    StrStore.Next A A roots none :=
  ⟨fun _ _ h => .inl h, fun _ _ h _ => h, nofun, nofun⟩

/-- Without a collection and without a new string there is no change. -/
theorem StrStore.Next.eq {A A' : StrStore} (hn : StrStore.Next A A' none none) : A' = A := by
  funext x
  refine Option.ext fun v => ⟨fun hx => (hn.old x v hx).resolve_right nofun, fun hx => ?_⟩
  exact hn.kept x v hx nofun

/-- The store of a heap with a new string. -/
theorem StrStore.Next.add {A A₁ A₂ : StrStore} {s : ℕ} {v : List UInt16}
    {roots : Option (List ℕ)} (hn : StrStore.Next A A₁ roots none)
    (hs : A₁ s = none) (h₂ : ∀ x, A₂ x = if x = s then some v else A₁ x) :
    StrStore.Next A A₂ roots (some (s, v)) where
  old x u hx := by
    rw [h₂] at hx
    split_ifs at hx with hxs
    · exact .inr (by rw [hxs, ← Option.some.inj hx])
    · exact .inl ((hn.old x u hx).resolve_right nofun)
  kept x u hx hr := by
    have hk := hn.kept x u hx hr
    rw [h₂, if_neg (fun e => by rw [e, hs] at hk; cases hk), hk]
  made x u hx := by
    obtain ⟨rfl, rfl⟩ := Prod.mk.inj (Option.some.inj hx)
    rw [h₂, if_pos rfl]
  fresh x u hx hr := by
    obtain ⟨rfl, rfl⟩ := Prod.mk.inj (Option.some.inj hx)
    cases hA : A s with
    | none => rfl
    | some z =>
        have := hn.kept s z hA hr
        rw [hs] at this
        cases this

namespace StrHeap

variable {h h' h'' : StrHeap} {s x b d k n p : ℕ} {t t' : StrThing} {u v : List UInt16}
  {l l' : Option ℕ}

open Classical in
/-- The values of the strings. -/
noncomputable def store (w : ℕ) (h : StrHeap) : StrStore := fun s =>
  if hv : ∃ v, h.Value w s v then some hv.choose else none

/-- The store has the values of the strings. -/
theorem store_eq_some_iff : h.store w s = some v ↔ h.Value w s v := by
  unfold store
  split_ifs with hv
  · rw [Option.some.injEq]
    refine ⟨fun e => e ▸ hv.choose_spec, fun h' => hv.choose_spec.unique h'⟩
  · exact ⟨nofun, fun h' => absurd ⟨v, h'⟩ hv⟩

/-- The store has nothing where there is no string. -/
theorem store_eq_none (hs : h.things s = none) : h.store w s = none := by
  cases hx : h.store w s with
  | none => rfl
  | some v =>
      obtain ⟨_, hd⟩ := store_eq_some_iff.1 hx
      have := hd.live
      rw [hs] at this
      cases this

/-- Where the strings are the same, and no value is lost, the store is the same. -/
theorem Inv.store_eq (hi : h.Inv w l) (hv : ∀ x v, h.Value w x v → h'.Value w x v)
    (hl : ∀ x, (h'.things x).isSome → (h.things x).isSome) : h'.store w = h.store w := by
  funext x
  refine Option.ext fun v => ?_
  rw [store_eq_some_iff, store_eq_some_iff]
  exact hi.value_iff (hv x) (hl x)

/-- Shorter chains have the same values. -/
theorem Shortens.store_eq (hs : h.Shortens w h') (hi : h.Inv w l) : h'.store w = h.store w :=
  hi.store_eq hs.value fun _ hx => hs.live ▸ hx

/-- Shorter chains have the same locks. -/
theorem Shortens.locksFlat (hs : h.Shortens w h') (hf : h.LocksFlat) : h'.LocksFlat := by
  intro x t ht hl
  rcases hs.thing x with e | ⟨t₀, t', ht₀, ht', hr⟩
  · exact hf x t (e ▸ ht) hl
  · obtain rfl := Option.some.inj (ht.symm.trans ht')
    exact hr.isMutable.trans (hf x t₀ ht₀ (hr.isLocked ▸ hl))

/-- After a collection, or none. -/
theorem Survives.next {roots : Option (List ℕ)} (hs : h.Survives w roots h') (hi : h.Inv w l) :
    StrStore.Next (h.store w) (h'.store w) roots none where
  old x v hv := by
    rw [store_eq_some_iff] at hv
    obtain ⟨_, hd⟩ := hv
    obtain ⟨t, ht⟩ := Option.isSome_iff_exists.1 hd.live
    obtain ⟨u, hu⟩ := hi.value x (by simp [hs.thing x t ht])
    rw [store_eq_some_iff, Value.unique ⟨_, hd⟩ (hs.value x u hd.live hu)]
    exact .inl hu
  kept x v hv hr := by
    rw [store_eq_some_iff] at hv ⊢
    exact hs.value x v (hs.root x hv.choose_spec.live hr) hv
  made x v hm := by cases hm
  fresh x v hm := by cases hm

/-! ### Memory of one's own -/

/-- `h'` is `h` but for what is in the buffer at `p`, and for how many buffers there are. -/
structure Beside (w p : ℕ) (h h' : StrHeap) : Prop where
  store : h'.store w = h.store w
  things : h'.things = h.things
  emptyString : h'.emptyString = h.emptyString
  holds : ∀ q k z, q ≠ p → h.mem.Holds q k z → h'.mem.Holds q k z

/-- What two changes leave alone both leave alone. -/
theorem Beside.trans (h₁ : h.Beside w p h') (h₂ : h'.Beside w p h'') : h.Beside w p h'' :=
  ⟨h₂.store.trans h₁.store, h₂.things.trans h₁.things, h₂.emptyString.trans h₁.emptyString,
    fun q k z hq hz => h₂.holds q k z hq (h₁.holds q k z hq hz)⟩

/-- A change of one buffer leaves the locks alone. -/
theorem Beside.locksFlat (hb : h.Beside w p h') (hf : h.LocksFlat) : h'.LocksFlat := by
  intro s t ht hl
  exact hf s t (hb.things ▸ ht) hl

/-- The memory may change where the strings' buffers keep what they hold. -/
theorem Inv.setMem (hi : h.Inv w l) {m : Mem UInt16} (l' : Option ℕ) (p : ℕ) (hwf : m.WF)
    (hbelow : ∀ q n, m.block q = some n → q + n ≤ addressLimit w)
    (howned : ∀ q n, m.block q = some n →
      l' = some q ∨ ∃ s t, h.things s = some t ∧ t.ref = .chars q)
    (hloose : ∀ q s t, l' = some q → h.things s = some t → t.ref ≠ .chars q)
    (hkeep : ∀ q k z, q ≠ p → h.mem.Holds q k z → m.Holds q k z)
    (hp : ∀ s t n v, h.things s = some t → t.ref = .chars p → v.length = t.length →
      h.mem.Holds p n v → m.Holds p n v) :
    ({ h with mem := m } : StrHeap).Inv w l' ∧ h.Beside w p { h with mem := m } := by
  have hval : ∀ x v, h.Value w x v → ({ h with mem := m } : StrHeap).Value w x v := by
    rintro x v ⟨d, hd⟩
    induction hd with
    | @flat x q n t v ht hr hl hlt hn hm =>
        refine ⟨0, .flat ht hr hl hlt hn ?_⟩
        by_cases hq : q = p
        · exact hq ▸ hp x t n v ht (hq ▸ hr) hl.symm (hq ▸ hm)
        · exact hkeep q n v hq hm
    | dep ht hr hmut hw hn hk _ ih =>
        obtain ⟨e, he⟩ := ih
        exact ⟨e + 1, .dep ht hr hmut hw hn hk he⟩
  refine ⟨⟨hwf, hbelow, hi.top, fun s hs => ?_, hi.owner, howned, hloose, hi.locks, ?_⟩,
    hi.store_eq hval fun _ hx => hx, rfl, rfl, hkeep⟩
  · obtain ⟨v, hv⟩ := hi.value s hs
    exact ⟨v, hval s v hv⟩
  · exact ⟨hval _ _ hi.empty.1, hi.empty.2⟩

/-- The buffer of a live string is a block. -/
theorem Inv.block_of_ref (hi : h.Inv w l) (ht : h.things s = some t) (hr : t.ref = .chars p) :
    ∃ n, h.mem.block p = some n := by
  rcases hi.owns.kind s t ht with ⟨_, b, hb⟩ | ⟨_, q, k, hq, hb⟩
  · rw [hr] at hb
    cases hb
  · exact ⟨k, StrRef.chars.inj (hr.symm.trans hq) ▸ hb⟩

/-- A length that fits the address space is not cut off. -/
theorem jschars_eq (hn : n < addressLimit w) : jschars w n = n := by
  simp only [addressLimit] at hn
  rw [jschars, sizeT, show 2 * w + 2 = 2 * w + 1 + 1 from rfl, Nat.pow_succ,
    Nat.mod_eq_of_lt (by omega)]
  omega

/-- **`JS_malloc`** answers `NULL`, or a buffer that is not yet a string's. -/
theorem malloc_eq (hi : h.Inv w none) (answer : Option ℕ) (hn : n < addressLimit w) :
    h.malloc w answer n = none ∨
      ∃ h' p, h.malloc w answer n = some (h', p) ∧ h'.Inv w (some p) ∧ h.Beside w p h' ∧
        h'.mem.Holds p n [] ∧ ∀ q k u, h.mem.Holds q k u → q ≠ p := by
  rw [StrHeap.malloc, jschars_eq hn]
  rcases h.mem.malloc_cases (addressLimit w) answer n with heq | ⟨p, hf, heq⟩
  · exact .inl (by rw [heq]; rfl)
  · have hnone := hf.block_eq_none hi.mem
    have hnew : ∀ s t, h.things s = some t → t.ref ≠ .chars p := fun s t ht hr => by
      obtain ⟨n, hb⟩ := hi.block_of_ref ht hr
      rw [hnone] at hb
      cases hb
    obtain ⟨hi', hst⟩ := hi.setMem (some p) p (hi.mem.claim hf)
      (fun q k hq => by
        simp only [Mem.claim] at hq
        split_ifs at hq with hqp
        · obtain rfl := Option.some.inj hq
          exact hqp ▸ hf.2.2.1
        · exact hi.below q k hq)
      (fun q k hq => by
        simp only [Mem.claim] at hq
        split_ifs at hq with hqp
        · exact .inl (by rw [hqp])
        · exact (hi.owned q k hq).imp (fun e => by cases e) id)
      (fun q s t hq ht => Option.some.inj hq ▸ hnew s t ht)
      (fun q k z _ hm => hm.claim hi.mem hf)
      (fun s t k v ht hr => absurd hr (hnew s t ht))
    refine .inr ⟨_, p, by rw [heq]; rfl, hi', hst, Mem.holds_claim, fun q k u hm => ?_⟩
    rintro rfl
    have := hm.block
    rw [hnone] at this
    cases this

/-- **`JS_free`** of a buffer that is no string's. -/
theorem free_eq (hi : h.Inv w (some p)) (hb : h.mem.block p = some n) :
    ∃ h', h.free p = some h' ∧ h'.Inv w none ∧ h.Beside w p h' := by
  obtain ⟨hi', hst⟩ := hi.setMem none p (hi.mem.drop hb)
    (fun q k hq => by
      simp only [Mem.drop] at hq
      split_ifs at hq
      exact hi.below q k hq)
    (fun q k hq => by
      simp only [Mem.drop] at hq
      split_ifs at hq with hqp
      exact .inr ((hi.owned q k hq).resolve_left fun e => hqp (Option.some.inj e).symm))
    nofun (fun q k z hq hm => hm.drop hi.mem hb hq)
    (fun s t k v ht hr => absurd hr (hi.loose p s t rfl ht))
  exact ⟨_, by rw [StrHeap.free, Mem.free_eq hb]; rfl, hi', hst⟩

/-- What can be copied from a source. -/
def Sources (h : StrHeap) (src : CharSource) (v : List UInt16) : Prop :=
  match src with
  | .own cs => cs.take v.length = v
  | .at q => ∃ a n u k, h.mem.Holds a n u ∧ q = a + k ∧ k + v.length ≤ u.length ∧
      (u.drop k).take v.length = v

/-- The strings of the buffer at `p` are within its first `n` characters. -/
def Within (h : StrHeap) (p n : ℕ) : Prop :=
  ∀ s t, h.things s = some t → t.ref = .chars p → t.length ≤ n

/-- A buffer without an owner has no strings in it. -/
theorem Inv.within (hi : h.Inv w (some p)) (n : ℕ) : h.Within p n :=
  fun s t ht hr => absurd hr (hi.loose p s t rfl ht)

/-- **`js_strncpy`** into a buffer, behind what it holds. -/
theorem strncpy_eq (hi : h.Inv w l) (hm : h.mem.Holds p n u) (hin : h.Within p u.length)
    {src : CharSource} (hsrc : h.Sources src v) (hle : u.length + v.length ≤ n) :
    ∃ h', h.strncpy (p + u.length) src v.length = some h' ∧ h'.Inv w l ∧ h.Beside w p h' ∧
      h'.mem.Holds p n (u ++ v) := by
  obtain ⟨hi', hst⟩ := hi.setMem l p (hi.mem.put hm.block hle) hi.below hi.owned hi.loose
    (fun q k z hq hz => hz.put_of_ne hi.mem hm.block hq.symm hle)
    (fun s t k z ht hr hlen hz => hz.put_behind (hlen ▸ hin s t ht hr))
  refine ⟨_, ?_, hi', hst, hm.put hle⟩
  cases src with
  | own cs =>
      rw [Sources] at hsrc
      simp only [strncpy, hsrc, Mem.stores_eq hi.mem hm.block hle, Option.map_some]
  | «at» q =>
      obtain ⟨a, m, z, k, hz, rfl, hk, hzv⟩ := hsrc
      simp only [strncpy, hz.copy_eq hi.mem hk hm.block hle, hzv, Option.map_some]

/-- The terminator, behind the characters. -/
theorem terminate_eq (hi : h.Inv w l) (hm : h.mem.Holds p n u) (hin : h.Within p u.length)
    (hlt : u.length < n) :
    ∃ h', h.terminate p u.length = some h' ∧ h'.Inv w l ∧ h.Beside w p h' ∧
      h'.mem.Holds p n (u ++ [0]) := by
  obtain ⟨h', heq, hi', hb, hm'⟩ := strncpy_eq (v := [0]) hi hm hin
    (show h.Sources (.own [0]) [0] from rfl) (Nat.succ_le_of_lt hlt)
  exact ⟨h', by simpa [strncpy, terminate] using heq, hi', hb, hm'⟩

/-! ### Terminators -/

/-- The buffer of `s`, if it has one, holds its characters and a zero. -/
def Term (h : StrHeap) (s : ℕ) : Prop :=
  ∀ t p, h.things s = some t → t.ref = .chars p →
    ∃ n v, v.length = t.length ∧ h.mem.Holds p n (v ++ [0])

/-- Every flat string is terminated. -/
def Terminated (h : StrHeap) : Prop := ∀ s, h.Term s

/-- A change of another buffer leaves the terminator of a string. -/
theorem Term.beside (hs : h.Term s) (hb : h.Beside w p h')
    (hp : ∀ t, h.things s = some t → t.ref ≠ .chars p) : h'.Term s := by
  intro t q ht hr
  rw [hb.things] at ht
  obtain ⟨n, v, hlen, hm⟩ := hs t q ht hr
  exact ⟨n, v, hlen, hb.holds q n _ (fun e => hp t ht (e ▸ hr)) hm⟩

/-- Shorter chains have the same terminators. -/
theorem Terminated.shortens (hs : h.Terminated) (hsh : h.Shortens w h') : h'.Terminated := by
  intro s t p ht hr
  rw [hsh.mem]
  exact hs s t p (hsh.chars ht hr) hr

/-- A collection leaves the terminators of the strings it keeps. -/
theorem Term.survives {roots : Option (List ℕ)} (hs : h.Term s) (hsv : h.Survives w roots h')
    (hi : h.Inv w l) : h'.Term s := by
  intro t p ht hr
  have ht₀ := hsv.thing s t ht
  obtain ⟨n, v, hlen, hm⟩ := hs t p ht₀ hr
  refine ⟨n, v, hlen, hsv.holds p n _ (fun x t' ht' hr' => ?_) hm⟩
  obtain rfl := hi.owner x s t' t p ht' ht₀ hr' hr
  simp [ht]

/-- A new string with a terminator is one more. -/
theorem Terminated.add (hs : h.Terminated)
    (ht : ∀ p, t.ref = .chars p → ∃ n v, v.length = t.length ∧ h.mem.Holds p n (v ++ [0])) :
    (h.add s t).Terminated := by
  intro x t' p ht' hr
  by_cases hx : x = s
  · obtain rfl : t' = t := by simpa [StrHeap.add, StrHeap.set, hx, eq_comm] using ht'
    exact ht p hr
  · exact hs x t' p (by simpa [StrHeap.add, StrHeap.set, hx] using ht') hr

/-! ### Strings that come -/

/-- A new string leaves the values of the others. -/
theorem Value.add (hs : h.things s = none) (hv : h.Value w x v) : (h.add s t).Value w x v := by
  obtain ⟨d, hd⟩ := hv
  refine hd.transfer (X := fun _ => False) (fun _ _ hx => hx.elim) (fun y t' _ hy => ?_) ?_
  · have hne : y ≠ s := fun e => by rw [e, hs] at hy; cases hy
    simp [StrHeap.add, StrHeap.set, hne, hy]
  · exact fun _ _ _ _ _ _ _ hm => hm

/-- A heap with a new string is in order if that string has a value, and is the only one
of its buffer. -/
theorem Inv.add (hi : h.Inv w l) (hs : h.things s = none) (hv : (h.add s t).Value w s v)
    (hr : ∀ p, t.ref = .chars p → l = some p) (hl : ∀ p, l = some p → t.ref = .chars p) :
    (h.add s t).Inv w none ∧
      ∀ x, (h.add s t).store w x = if x = s then some v else h.store w x := by
  have hother : ∀ {x t'}, x ≠ s → (h.add s t).things x = some t' → h.things x = some t' := by
    intro x t' hx ht'
    simpa [StrHeap.add, StrHeap.set, hx] using ht'
  have hself : ∀ {t'}, (h.add s t).things s = some t' → t' = t := by
    intro t' ht'
    simpa [StrHeap.add, StrHeap.set, eq_comm] using ht'
  have hne : ∀ {x t'}, h.things x = some t' → x ≠ s := by
    rintro x t' ht' rfl
    rw [hs] at ht'
    cases ht'
  have hval : ∀ x, x ≠ s → ∀ v, (h.add s t).Value w x v ↔ h.Value w x v := fun x hx v =>
    hi.value_iff (fun v => Value.add hs) fun hx' => by
      simpa [StrHeap.add, StrHeap.set, hx] using hx'
  refine ⟨⟨hi.mem, hi.below, fun x hx => ?_, fun x hx => ?_, ?_, ?_,
    (fun _ _ _ hp => by cases hp), ?_, ?_⟩, fun x => ?_⟩
  · simp only [StrHeap.add]
    by_cases hxs : x = s
    · omega
    · have := hi.top x (by simpa [StrHeap.add, StrHeap.set, hxs] using hx)
      omega
  · by_cases hxs : x = s
    · exact ⟨v, hxs ▸ hv⟩
    · obtain ⟨v', hv'⟩ := hi.value x (by simpa [StrHeap.add, StrHeap.set, hxs] using hx)
      exact ⟨v', hv'.add hs⟩
  · intro x y t₁ t₂ p h₁ h₂ hr₁ hr₂
    by_cases hx : x = s <;> by_cases hy : y = s
    · rw [hx, hy]
    · subst hx
      obtain rfl := hself h₁
      exact absurd hr₂ (hi.loose p y t₂ (hr p hr₁) (hother hy h₂))
    · subst hy
      obtain rfl := hself h₂
      exact absurd hr₁ (hi.loose p x t₁ (hr p hr₂) (hother hx h₁))
    · exact hi.owner x y t₁ t₂ p (hother hx h₁) (hother hy h₂) hr₁ hr₂
  · intro p n hb
    rcases hi.owned p n hb with hp | ⟨x, t', ht', hr'⟩
    · exact .inr ⟨s, t, by simp [StrHeap.add, StrHeap.set], hl p hp⟩
    · exact .inr ⟨x, t', by simp [StrHeap.add, StrHeap.set, hne ht', ht'], hr'⟩
  · intro x hx
    obtain ⟨t', ht', hl'⟩ := hi.locks x hx
    exact ⟨t', by simp [StrHeap.add, StrHeap.set, hne ht', ht'], hl'⟩
  · obtain ⟨hv', t', ht', hl', hm'⟩ := hi.empty
    have he : (h.add s t).emptyString = h.emptyString := rfl
    rw [he]
    exact ⟨hv'.add hs, t', by simp [StrHeap.add, StrHeap.set, hne ht', ht'], hl', hm'⟩
  · refine Option.ext fun v' => ?_
    by_cases hx : x = s
    · rw [if_pos hx, store_eq_some_iff, Option.some.injEq, hx]
      exact ⟨fun hv' => hv.unique hv', fun e => e ▸ hv⟩
    · rw [if_neg hx, store_eq_some_iff, store_eq_some_iff, hval x hx]

/-- A new string is locked only if it stays flat. -/
theorem locksFlat_add (hf : h.LocksFlat) (ht : t.isLocked = true → t.isMutable = false) :
    (h.add s t).LocksFlat := by
  intro x t' ht' hl
  by_cases hx : x = s
  · obtain rfl : t' = t := by simpa [StrHeap.add, StrHeap.set, hx, eq_comm] using ht'
    exact ht hl
  · exact hf x t' (by simpa [StrHeap.add, StrHeap.set, hx] using ht') hl

/-! ### Strings that are rewritten -/

/-- The heap with another string at an address, and another memory. -/
def rewrite (h : StrHeap) (m : Mem UInt16) (s : ℕ) (t : StrThing) : StrHeap :=
  ({ h with mem := m } : StrHeap).set s t

/-- The strings of a rewritten heap. -/
theorem rewrite_things (m : Mem UInt16) (s : ℕ) (t : StrThing) (x : ℕ) :
    (h.rewrite m s t).things x = if x = s then some t else h.things x := rfl

/-- A string may be rewritten that still has its value.  Its buffer is its own, the other
strings' buffers hold what they did, and it is still locked where it has to be. -/
structure Rewritable (w : ℕ) (l : Option ℕ) (h : StrHeap) (m : Mem UInt16) (s : ℕ)
    (t' : StrThing) : Prop where
  live : (h.things s).isSome
  wf : m.WF
  below : ∀ p n, m.block p = some n → p + n ≤ addressLimit w
  value : ∀ v, h.Value w s v → (h.rewrite m s t').Value w s v
  holds : ∀ x t p n v, x ≠ s → h.things x = some t → t.ref = .chars p → h.mem.Holds p n v →
    m.Holds p n v
  owned : ∀ p n, m.block p = some n → l = some p ∨ t'.ref = .chars p ∨
    ∃ x t, x ≠ s ∧ h.things x = some t ∧ t.ref = .chars p
  apart : ∀ x t p, x ≠ s → h.things x = some t → t.ref = .chars p → t'.ref ≠ .chars p ∧ l ≠ some p
  loose : ∀ p, l = some p → t'.ref ≠ .chars p
  locked : 0 < h.locks s ∨ s = h.emptyString → t'.isLocked = true
  flat : t'.isLocked = true → t'.isMutable = false

section Rewritable

variable {m : Mem UInt16}

/-- The string that is rewritten. -/
theorem rewrite_self : (h.rewrite m s t').things s = some t' := by rw [rewrite_things, if_pos rfl]

/-- The other strings are as they were. -/
theorem rewrite_other (hx : x ≠ s) : (h.rewrite m s t').things x = h.things x := by
  rw [rewrite_things, if_neg hx]

/-- Rewriting makes no string. -/
theorem Rewritable.live_before (hr : Rewritable w l' h m s t')
    (hx : ((h.rewrite m s t').things x).isSome) : (h.things x).isSome := by
  by_cases hxs : x = s
  · exact hxs ▸ hr.live
  · exact rewrite_other hxs ▸ hx

/-- No string loses its value. -/
theorem Rewritable.keeps_value (hr : Rewritable w l' h m s t') (hv : h.Value w x v) :
    (h.rewrite m s t').Value w x v := by
  obtain ⟨d, hd⟩ := hv
  refine hd.transfer (X := (· = s)) ?_ (fun x t hx ht => (rewrite_other hx).trans ht) ?_
  · rintro x v rfl hv
    exact hr.value v hv
  · rintro x t p v hx ht hrt ⟨n, hn, hm⟩
    exact ⟨n, hn, hr.holds x t p n v hx ht hrt hm⟩

/-- What an owner of a buffer was before. -/
theorem owner_before (ht : (h.rewrite m s t').things x = some t) (hrt : t.ref = .chars p) :
    x = s ∧ t'.ref = .chars p ∨ x ≠ s ∧ h.things x = some t := by
  by_cases hxs : x = s
  · subst hxs
    obtain rfl := Option.some.inj (rewrite_self.symm.trans ht)
    exact .inl ⟨rfl, hrt⟩
  · exact .inr ⟨hxs, rewrite_other hxs ▸ ht⟩

/-- Rewriting keeps the invariant. -/
theorem Rewritable.inv (hr : Rewritable w l' h m s t') (hi : h.Inv w l) :
    (h.rewrite m s t').Inv w l' := by
  refine ⟨hr.wf, hr.below, fun x hx => hi.top x (hr.live_before hx), fun x hx => ?_, ?_, ?_, ?_,
    fun x hx => ?_, ?_⟩
  · obtain ⟨v, hv⟩ := hi.value x (hr.live_before hx)
    exact ⟨v, hr.keeps_value hv⟩
  · intro x y t₁ t₂ p h₁ h₂ hr₁ hr₂
    rcases owner_before h₁ hr₁ with ⟨rfl, hp⟩ | ⟨hx, h₁'⟩ <;>
      rcases owner_before h₂ hr₂ with ⟨rfl, hp'⟩ | ⟨hy, h₂'⟩
    · rfl
    · exact absurd hp (hr.apart y t₂ p hy h₂' hr₂).1
    · exact absurd hp' (hr.apart x t₁ p hx h₁' hr₁).1
    · exact hi.owner x y t₁ t₂ p h₁' h₂' hr₁ hr₂
  · intro p n hb
    rcases hr.owned p n hb with hl | hp | ⟨x, t, hx, ht, hrt⟩
    · exact .inl hl
    · exact .inr ⟨s, t', rewrite_self, hp⟩
    · exact .inr ⟨x, t, (rewrite_other hx).trans ht, hrt⟩
  · intro p x t hl ht hrt
    rcases owner_before ht hrt with ⟨rfl, hp⟩ | ⟨hx, ht'⟩
    · exact hr.loose p hl hp
    · exact (hr.apart x t p hx ht' hrt).2 hl
  · by_cases hxs : x = s
    · subst hxs
      exact ⟨t', rewrite_self, hr.locked (.inl hx)⟩
    · obtain ⟨t, ht, hl⟩ := hi.locks x hx
      exact ⟨t, (rewrite_other hxs).trans ht, hl⟩
  · obtain ⟨hv, t, ht, hl, hm⟩ := hi.empty
    refine ⟨hr.keeps_value hv, ?_⟩
    change ∃ t, (h.rewrite m s t').things h.emptyString = some t ∧ _
    by_cases hxs : h.emptyString = s
    · have hlock := hr.locked (.inr hxs.symm)
      exact ⟨t', by rw [hxs, rewrite_self], hlock, hr.flat hlock⟩
    · exact ⟨t, (rewrite_other hxs).trans ht, hl, hm⟩

/-- Rewriting keeps locks on strings that stay flat. -/
theorem Rewritable.locksFlat (hr : Rewritable w l' h m s t') (hf : h.LocksFlat) :
    (h.rewrite m s t').LocksFlat := by
  intro x t ht hl
  by_cases hxs : x = s
  · subst hxs
    obtain rfl := Option.some.inj (rewrite_self.symm.trans ht)
    exact hr.flat hl
  · exact hf x t (rewrite_other hxs ▸ ht) hl

/-- The other strings stay terminated. -/
theorem Rewritable.term (hr : Rewritable w l' h m s t') (hx : x ≠ s) (hT : h.Term x) :
    (h.rewrite m s t').Term x := by
  intro t p ht hrt
  have ht₀ := rewrite_other hx ▸ ht
  obtain ⟨n, v, hlen, hm⟩ := hT t p ht₀ hrt
  exact ⟨n, v, hlen, hr.holds x t p n _ hx ht₀ hrt hm⟩

/-- **A string may be rewritten so that no value changes.** -/
theorem Inv.rewrite (hi : h.Inv w l) (hf : h.LocksFlat) (hr : Rewritable w l' h m s t') :
    (h.rewrite m s t').Inv w l' ∧ (h.rewrite m s t').LocksFlat ∧
      (h.rewrite m s t').store w = h.store w ∧
      ∀ x, x ≠ s → h.Term x → (h.rewrite m s t').Term x :=
  ⟨hr.inv hi, hr.locksFlat hf, hi.store_eq (fun _ _ => hr.keeps_value) fun _ => hr.live_before,
    fun _ => hr.term⟩

end Rewritable

end StrHeap

end ProntoScript
