/-
# Runs of the string operations

What a program does with its strings is a run of `StrEvent`s: it makes strings, cuts and
joins them, reads them, locks them, and the collector comes and goes.  Between the calls
the heap of strings is a store of values that never change (`run_refines`), whatever
`js_ConcatStrings`, `js_UndependString` and `js_MinimizeDependentStrings` do to it, and no
call touches memory that is not a string's, or frees a buffer twice.  No buffer is lost
either (`run_owners`).

Two things are asked of the program.  It keeps `left` among the roots of a collection that
`js_ConcatStrings` makes, as it keeps the base of a string that it cuts.  And it locks only
strings that are not mutable: what a lock on another comes to is in `gc_values_iff`.

The zero behind the characters of a flat string, a backstop for code that is given the
characters without the length, is not as safe as the rest: `run_terminated_iff` says in
which runs all of them stay.
-/

import ProntoScript.Strings.Concat
import ProntoScript.Foundation.Transition

namespace ProntoScript

open HeapBlocks Transition

variable {w : ℕ}

namespace StrHeap

variable {h h' h'' h₀ : StrHeap} {s x b d k n p : ℕ} {t t' : StrThing} {u v : List UInt16}
  {l l' : Option ℕ}

/-! ### Flags and locks -/

/-- A string may have other flags.  Only a flat one may cease to be mutable. -/
theorem Sound.reflag (hs : h.Sound w) (t' : StrThing) (ht : h.things s = some t)
    (hlen : t'.length = t.length) (hr : t'.ref = t.ref)
    (hmut : t'.isMutable = t.isMutable ∨ ∃ p, t.ref = .chars p)
    (hlock : 0 < h.locks s ∨ s = h.emptyString → t'.isLocked = true)
    (hflat : t'.isLocked = true → t'.isMutable = false) :
    (h.set s t').Sound w ∧ (h.set s t').store w = h.store w ∧
      (h.Terminated → (h.set s t').Terminated) := by
  have hi := hs.inv
  have hself : (h.rewrite h.mem s t').things s = some t' := rewrite_self
  have hflags : Rewritable w none h h.mem s t' :=
    { live := by simp [ht]
      wf := hi.mem
      below := hi.below
      value := fun v hv => by
        obtain ⟨d, hd⟩ := hv
        cases hd with
        | flat ht' hr' hl hlt hn hm =>
            obtain rfl := Option.some.inj (ht.symm.trans ht')
            exact ⟨0, .flat hself (hr.trans hr') (hlen.trans hl) hlt hn hm⟩
        | @dep d _ b k n _ u ht' hr' hmu hw hn hk hb =>
            obtain rfl := Option.some.inj (ht.symm.trans ht')
            have hmu' : t'.isMutable = true := by
              rcases hmut with e | ⟨p, hp⟩
              · exact e.trans hmu
              · rw [hr'] at hp
                cases hp
            have hb' : (h.rewrite h.mem s t').Denotes w d b u := hb.set_of_lt fun e u he => by
              have := (he.unique (.dep ht hr' hmu hw hn hk hb)).1
              omega
            exact ⟨d + 1, .dep hself (hr.trans hr') hmu' (hlen ▸ hw) hn hk hb'⟩
      holds := fun _ _ _ _ _ _ _ _ hh => hh
      owned := fun p k hb => by
        obtain ⟨x, t₁, ht₁, hr₁⟩ := (hi.owned p k hb).resolve_left nofun
        by_cases hx : x = s
        · subst hx
          obtain rfl := Option.some.inj (ht.symm.trans ht₁)
          exact .inr (.inl (hr.trans hr₁))
        · exact .inr (.inr ⟨x, t₁, hx, ht₁, hr₁⟩)
      apart := fun x t₁ p hx ht₁ hr₁ =>
        ⟨fun e => hx (hi.owner x s t₁ t p ht₁ ht hr₁ (hr.symm.trans e)), nofun⟩
      loose := nofun
      locked := hlock
      flat := hflat }
  obtain ⟨hi', hf', hst, hT⟩ := hi.rewrite hs.flat hflags
  refine ⟨⟨hi', hf'⟩, hst, fun hall x => ?_⟩
  by_cases hx : x = s
  · subst hx
    intro t₁ p ht₁ hr₁
    obtain rfl := Option.some.inj (hself.symm.trans ht₁)
    obtain ⟨n, v, hv, hm⟩ := hall x t p ht (hr.symm.trans hr₁)
    exact ⟨n, v, hv.trans hlen.symm, hm⟩
  · exact hT x hx (hall x)

/-- The table of nested locks may change, as long as what is in it is locked. -/
theorem Sound.setLocks (hs : h.Sound w) {f : ℕ → ℕ}
    (hf : ∀ s, 0 < f s → ∃ t, h.things s = some t ∧ t.isLocked = true) :
    ({ h with locks := f } : StrHeap).Sound w ∧
      ({ h with locks := f } : StrHeap).store w = h.store w ∧
      (h.Terminated → ({ h with locks := f } : StrHeap).Terminated) := by
  have hi := hs.inv
  have hval : ∀ x v, h.Value w x v → ({ h with locks := f } : StrHeap).Value w x v := by
    rintro x v ⟨d, hd⟩
    refine hd.transfer (X := fun _ => False) (fun _ _ hx => hx.elim) ?_ ?_
    · exact fun _ _ _ ht => ht
    · exact fun _ _ _ _ _ _ _ hm => hm
  refine ⟨⟨⟨hi.mem, hi.below, hi.top, fun x hx => ?_, hi.owner, hi.owned, hi.loose, hf,
    hval _ _ hi.empty.1, hi.empty.2⟩, hs.flat⟩, hi.store_eq hval fun _ hx => hx, id⟩
  obtain ⟨v, hv⟩ := hi.value x hx
  exact ⟨v, hval x v hv⟩

/-- **`js_LockGCThingRT`** of a string that is not mutable. -/
theorem lockGCThing_eq (hs : h.Sound w) (ht : h.things s = some t) (hm : t.isMutable = false)
    (answer : Bool) :
    ∃ h' ok, h.lockGCThing w answer s = some (h', ok) ∧ h'.Sound w ∧ h'.store w = h.store w ∧
      (h.Terminated → h'.Terminated) := by
  have hflat := hs.inv.flat_of_not_mutable ht hm
  obtain ⟨hs₁, hst₁, hT₁⟩ := hs.reflag { t with isLocked := true } ht rfl rfl (.inl rfl)
    (fun _ => rfl) fun _ => hm
  have hdeep := hs.inv.not_deep ht
  simp only [lockGCThing, ht, Option.bind_eq_bind, Option.bind_some, hdeep, Bool.or_false]
  by_cases hl : t.isLocked = true
  · rw [if_pos hl]
    cases answer with
    | false => exact ⟨h, false, by simp, hs, rfl, id⟩
    | true =>
        obtain ⟨hs₂, hst₂, hT₂⟩ := hs₁.setLocks
          (f := fun x => if x = s then (if h.locks s = 0 then 2 else h.locks s + 1) else h.locks x)
          (fun x hx => by
            by_cases hxs : x = s
            · exact ⟨{ t with isLocked := true }, by simp [StrHeap.set, hxs], rfl⟩
            · simp only [if_neg hxs] at hx
              obtain ⟨t', ht', hl'⟩ := hs.inv.locks x hx
              exact ⟨t', by simp [StrHeap.set, hxs, ht'], hl'⟩)
        exact ⟨_, true, by simp, hs₂, hst₂.trans hst₁, fun hT => hT₂ (hT₁ hT)⟩
  · rw [if_neg hl]
    exact ⟨_, true, rfl, hs₁, hst₁, hT₁⟩

/-- **`js_UnlockGCThingRT`** of a string, of the empty one where it was locked once more. -/
theorem unlockGCThing_eq (hs : h.Sound w) (ht : h.things s = some t)
    (he : s = h.emptyString → 1 < h.locks s) :
    ∃ h', h.unlockGCThing w s = some h' ∧ h'.Sound w ∧ h'.store w = h.store w ∧
      (h.Terminated → h'.Terminated) := by
  have hdeep := hs.inv.not_deep ht
  simp only [unlockGCThing, ht, Option.bind_eq_bind, Option.bind_some, hdeep]
  by_cases hl : t.isLocked = true
  · rw [if_pos hl]
    by_cases h₀ : h.locks s = 0
    · rw [if_pos h₀]
      obtain ⟨hs₁, hst₁, hT₁⟩ := hs.reflag { t with isLocked := false } ht rfl rfl (.inl rfl)
        (fun hx => by rcases hx with hx | hx <;> [omega; exact absurd (he hx) (by omega)]) nofun
      exact ⟨_, by simp, hs₁, hst₁, hT₁⟩
    · rw [if_neg h₀]
      obtain ⟨hs₁, hst₁, hT₁⟩ := hs.setLocks
        (f := fun x => if x = s then h.locks s - 1 else h.locks x) (fun x hx => by
          by_cases hxs : x = s
          · exact ⟨t, by rw [hxs, ht], hl⟩
          · simp only [if_neg hxs] at hx
            exact hs.inv.locks x hx)
      by_cases h₁ : h.locks s - 1 = 0
      · obtain ⟨hs₂, hst₂, hT₂⟩ := hs₁.reflag { t with isLocked := false } ht rfl rfl
          (.inl rfl) (fun hx => by
            rcases hx with hx | hx <;> [simp [h₁] at hx; exact absurd (he hx) (by omega)])
          nofun
        exact ⟨_, by simp [h₁]; rfl, hs₂, hst₂.trans hst₁, fun hT => hT₂ (hT₁ hT)⟩
      · exact ⟨_, by simp [h₁], hs₁, hst₁, hT₁⟩
  · exact ⟨h, by simp [hl], hs, rfl, id⟩

/-- **`js_GetStringChars`** answers `NULL`, or where the characters are, for good: the string
is not mutable from then on. -/
theorem getStringChars_eq (hs : h.Sound w) (answer : Option ℕ) (hv : h.Value w s v) :
    ∃ h' r, h.getStringChars w answer s = some (h', r) ∧ h'.Sound w ∧ h'.store w = h.store w ∧
      (h.Terminated → h'.Terminated) ∧ ∀ p, r = some p → ∃ t n, h'.things s = some t ∧
        t.ref = .chars p ∧ t.length = v.length ∧ v.length < n ∧ h'.mem.Holds p n v ∧
        t.isMutable = false := by
  obtain ⟨h₁, r, heq, hy, hT, hr⟩ := undependString_eq hs answer hv
  cases r with
  | none => exact ⟨h₁, none, by simp [getStringChars, heq], hy.sound, hy.next.eq, hT, nofun⟩
  | some p =>
      obtain ⟨t, n, ht, hrp, hlen, hn, hm⟩ := hr p rfl
      obtain ⟨hs₂, hst₂, hT₂⟩ := hy.sound.reflag { t with isMutable := false } ht rfl rfl
        (.inr ⟨p, hrp⟩) (fun hx => show t.isLocked = true from hy.sound.inv.isLocked ht hx)
        fun _ => rfl
      refine ⟨h₁.set s { t with isMutable := false }, some p, by simp [getStringChars, heq, ht],
        hs₂, hst₂.trans hy.next.eq, fun h₀ => hT₂ (hT h₀), fun q hq => ?_⟩
      obtain rfl := Option.some.inj hq
      exact ⟨{ t with isMutable := false }, n, by simp [StrHeap.set], hrp, hlen, hn, hm, rfl⟩

/-! ### The first string -/

/-- A collection of no strings. -/
theorem lastDitchGC_nil (ht : ∀ x, h.things x = none) (htop : h.top = 0)
    (o : Option (List ℕ)) : h.lastDitchGC w o = some h ∨ h.lastDitchGC w o = none := by
  have hl : h.lockedThings = [] := by simp [lockedThings, htop]
  rcases o with _ | _ | ⟨r, rs⟩
  · exact .inl rfl
  · exact .inl (by simp [lastDitchGC, gc, markPhase, hl, htop])
  · exact .inr (by simp [lastDitchGC, gc, markPhase, markString, ht])

/-- A memory of one buffer, with the terminator of the empty string. -/
structure FirstBuffer (w p : ℕ) (m : Mem UInt16) : Prop where
  wf : m.WF
  holds : m.Holds p 1 ([] ++ [0])
  only : ∀ q n, m.block q = some n → q = p ∧ n = 1
  below : p + 1 ≤ addressLimit w

/-- The first string is the empty one. -/
theorem FirstBuffer.sound {m : Mem UInt16} (hm : FirstBuffer w p m) (s : ℕ) :
    let h : StrHeap := ⟨m, fun x => if x = s then some ⟨0, .chars p, false, true⟩ else none,
      max 0 (s + 1), s, fun _ => 0⟩
    h.Sound w ∧ h.Terminated ∧
      h.store w = fun x => if x = h.emptyString then some [] else none := by
  intro h
  have ht : h.things s = some ⟨0, .chars p, false, true⟩ := if_pos rfl
  have hself : ∀ {x t}, h.things x = some t → x = s ∧ t = ⟨0, .chars p, false, true⟩ := by
    intro x t hx
    simp only [h] at hx
    split_ifs at hx with hxs
    exact ⟨hxs, (Option.some.inj hx).symm⟩
  have hv : h.Value w s [] := ⟨0, .flat ht rfl rfl (Nat.two_pow_pos _) Nat.one_pos hm.holds.front⟩
  refine ⟨⟨⟨hm.wf, ?_, ?_, ?_, ?_, ?_, nofun, ?_, hv, _, ht, rfl, rfl⟩, ?_⟩, ?_, ?_⟩
  · intro q n hb
    obtain ⟨rfl, rfl⟩ := hm.only q n hb
    exact hm.below
  · intro x hx
    obtain ⟨t, hx⟩ := Option.isSome_iff_exists.1 hx
    simp only [h, (hself hx).1]
    omega
  · intro x hx
    obtain ⟨t, hx⟩ := Option.isSome_iff_exists.1 hx
    exact ⟨[], (hself hx).1 ▸ hv⟩
  · intro x y t u q hx hy _ _
    rw [(hself hx).1, (hself hy).1]
  · intro q n hb
    exact .inr ⟨s, _, ht, by rw [(hm.only q n hb).1]⟩
  · exact fun x hx => absurd hx (Nat.lt_irrefl 0)
  · intro x t hx _
    rw [(hself hx).2]
  · intro x t q hx hr
    obtain ⟨_, rfl⟩ := hself hx
    obtain rfl := StrRef.chars.inj hr
    exact ⟨1, [], rfl, hm.holds⟩
  · funext x
    by_cases hx : x = s
    · rw [hx, if_pos rfl]
      exact store_eq_some_iff.2 hv
    · rw [if_neg hx]
      exact store_eq_none (if_neg hx)

/-- The first buffer: one character, the terminator of the empty string. -/
theorem firstBuffer {limit : ℕ} (hf : (Mem.empty : Mem UInt16).Fits limit p 1)
    (hl : limit = addressLimit w) :
    ((Mem.empty : Mem UInt16).claim p 1).stores p [] =
        some (((Mem.empty : Mem UInt16).claim p 1).put p []) ∧
      ∃ m, (((Mem.empty : Mem UInt16).claim p 1).put p []).stores p [0] = some m ∧
        FirstBuffer w p m := by
  have hwf := Mem.wf_empty.claim hf
  have hb : ((Mem.empty : Mem UInt16).claim p 1).block p = some 1 := Mem.holds_claim.block
  have hnil : 0 + ([] : List UInt16).length ≤ 1 := Nat.zero_le 1
  have hone : 0 + [(0 : UInt16)].length ≤ 1 := Nat.le_refl 1
  have hwf₁ := hwf.put hb hnil
  refine ⟨Mem.stores_eq hwf hb hnil, _, Mem.stores_eq hwf₁ hb hone, hwf₁.put hb hone,
    (Mem.holds_claim.put hnil).put hone, fun q n hq => ?_, hl ▸ hf.2.2.1⟩
  simp only [Mem.put, Mem.claim, Mem.empty] at hq
  split_ifs at hq with hqp
  exact ⟨hqp, (Option.some.inj hq).symm⟩

/-- **`js_InitRuntimeStringState`** leaves a heap that is in order, and holds the empty
string. -/
theorem initRuntimeStringState_sound {o : StrAnswers}
    (hinit : initRuntimeStringState w o = some (some h)) :
    h.Sound w ∧ h.Terminated ∧
      h.store w = fun s => if s = h.emptyString then some [] else none := by
  have hone : (0 : ℕ) + 1 < addressLimit w := Nat.one_lt_two_pow (by omega)
  unfold initRuntimeStringState newStringCopyN at hinit
  simp only [StrHeap.malloc, jschars_eq hone] at hinit
  rcases Mem.malloc_cases (Mem.empty : Mem UInt16) (addressLimit w) o.chars (0 + 1) with
    heq | ⟨p, hf, heq⟩
  · simp [heq] at hinit
  · obtain ⟨hnil, m, hz, hm⟩ := firstBuffer (w := w) hf rfl
    have hmask : ¬0 > stringLengthMask w := by omega
    simp only [heq, Option.map_some, strncpy, terminate, List.take_nil, Option.bind_eq_bind,
      Nat.zero_add, Nat.add_zero, hnil, hz, Option.bind_some, newStringOrFree, newString,
      newGCThing, if_neg hmask] at hinit
    rcases lastDitchGC_nil (w := w) (h := ⟨m, fun _ => none, 0, 0, fun _ => 0⟩) (fun _ => rfl) rfl
      o.gc with hgc | hgc
    · rw [hgc] at hinit
      cases hx : o.thing with
      | none => simp [hx, StrHeap.free, Mem.free_eq hm.holds.block] at hinit
      | some s =>
          rw [hx] at hinit
          obtain rfl := Option.some.inj (Option.some.inj hinit)
          exact hm.sound s
    · simp [hgc] at hinit

end StrHeap

/-! ### Calls -/

/-- A call on the strings, with what the allocators answer in it. -/
inductive StrEvent
  | newStringCopyN (cs : List UInt16) (isMutable isLocked : Bool) (o : StrAnswers)
  | newDependentString (base start length : ℕ) (o : StrAnswers)
  | concatStrings (left right : ℕ) (o : StrAnswers)
  | stringChars (s : ℕ)
  | undependString (s : ℕ) (answer : Option ℕ)
  | getStringChars (s : ℕ) (answer : Option ℕ)
  | lockGCThing (s : ℕ) (answer : Bool)
  | unlockGCThing (s : ℕ)
  | gc (roots : List ℕ)

/-- What a call answers: a string or `NULL`, the characters that the caller finds or `NULL`,
or whether it got through. -/
inductive StrAnswer
  | str (s : Option ℕ)
  | units (v : Option (List UInt16))
  | done (ok : Bool)

namespace StrHeap

/-- The characters that a caller finds at an address, by the length of the string. -/
def readChars (w : ℕ) (h : StrHeap) (s p : ℕ) : Option (List UInt16) := do
  let t ← h.things s
  h.mem.loads p (t.stringLength w)

/-- The characters of a string, where there are any. -/
def readAnswer (w : ℕ) (h : StrHeap) (s : ℕ) : Option ℕ → Option StrAnswer
  | none => some (.units none)
  | some p => (h.readChars w s p).map fun v => .units (some v)

/-- One call. -/
def execute (w : ℕ) (h : StrHeap) : StrEvent → Option (StrHeap × StrAnswer)
  | .newStringCopyN cs isMutable isLocked o => do
      let (h, s) ← h.newStringCopyN w o (.own cs) cs.length isMutable isLocked
      some (h, .str s)
  | .newDependentString base start length o => do
      let (h, s) ← h.newDependentString w o base start length
      some (h, .str s)
  | .concatStrings left right o => do
      let (h, s) ← h.concatStrings w o left right
      some (h, .str s)
  | .stringChars s => do
      let (h, p) ← h.stringChars w s
      let a ← h.readAnswer w s (some p)
      some (h, a)
  | .undependString s answer => do
      let (h, p) ← h.undependString w answer s
      let a ← h.readAnswer w s p
      some (h, a)
  | .getStringChars s answer => do
      let (h, p) ← h.getStringChars w answer s
      let a ← h.readAnswer w s p
      some (h, a)
  | .lockGCThing s answer => do
      let (h, ok) ← h.lockGCThing w answer s
      some (h, .done ok)
  | .unlockGCThing s => do
      let h ← h.unlockGCThing w s
      some (h, .done true)
  | .gc roots => do
      let h ← h.gc w roots
      some (h, .done true)

/-- The calls as a transition system. -/
def Step (w : ℕ) (h : StrHeap) (e : StrEvent × StrAnswer) (h' : StrHeap) : Prop :=
  h.execute w e.1 = some (h', e.2)

/-- The collection of a call marks from live strings. -/
def LiveRoots (h : StrHeap) (o : StrAnswers) : Prop :=
  ∀ rs, o.gc = some rs → ∀ r ∈ rs, (h.things r).isSome

/-- What is asked of a caller. The strings and the roots it passes are live; a new string
that is locked from the start is not mutable, and its characters fit the address space; a
dependent string lies within its base; a collection made in a call has the base, or the
left operand, among its roots; what is locked is not mutable, and `rt->emptyString` is
unlocked only where it was locked once more. -/
def Allowed (w : ℕ) (h : StrHeap) : StrEvent → Prop
  | .newStringCopyN cs isMutable isLocked o =>
      cs.length + 1 < addressLimit w ∧ (isLocked = true → isMutable = false) ∧ h.LiveRoots o
  | .newDependentString base start length o =>
      (∃ t, h.things base = some t ∧ start + length ≤ t.stringLength w) ∧ h.LiveRoots o ∧
        ∀ rs, o.gc = some rs → base ∈ rs
  | .concatStrings left right o =>
      (h.things left).isSome ∧ (h.things right).isSome ∧ h.LiveRoots o ∧
        ∀ rs, o.gc = some rs → left ∈ rs
  | .stringChars s | .undependString s _ | .getStringChars s _ => (h.things s).isSome
  | .lockGCThing s _ => ∃ t, h.things s = some t ∧ t.isMutable = false
  | .unlockGCThing s => (h.things s).isSome ∧ (s = h.emptyString → 1 < h.locks s)
  | .gc roots => ∀ r ∈ roots, (h.things r).isSome

end StrHeap

/-- What a call on a store of values comes to: a new string has the value that its
arguments say, or there is none; the other strings keep their values, and go only where a
collection does not have them among its roots. -/
def StrStore.Call (A : StrStore) : StrEvent × StrAnswer → StrStore → Prop
  | (.newStringCopyN cs _ _ o, .str r), A' => StrStore.Next A A' o.gc (r.map (·, cs))
  | (.newDependentString base start length o, .str r), A' => ∃ u, A base = some u ∧
      start + length ≤ u.length ∧
      (StrStore.Next A A' o.gc (r.map (·, (u.drop start).take length)) ∨
        A' = A ∧ ∃ s, r = some s ∧ A s = some ((u.drop start).take length))
  | (.concatStrings left right o, .str r), A' => ∃ u v, A left = some u ∧ A right = some v ∧
      (StrStore.Next A A' o.gc (r.map (·, u ++ v)) ∨
        A' = A ∧ ∃ s, r = some s ∧ A s = some (u ++ v))
  | (.stringChars s, .units r), A' => A' = A ∧ r = A s ∧ r ≠ none
  | (.undependString s _, .units r), A' | (.getStringChars s _, .units r), A' =>
      A' = A ∧ ∀ v, r = some v → A s = some v
  | (.lockGCThing _ _, .done _), A' => A' = A
  | (.unlockGCThing _, .done ok), A' => A' = A ∧ ok = true
  | (.gc roots, .done ok), A' => StrStore.Next A A' (some roots) none ∧ ok = true
  | _, _ => False

namespace StrHeap

variable {h h' h₀ : StrHeap} {s p : ℕ} {t : StrThing} {v : List UInt16}

/-- Where the characters of a string are found, the caller reads its value. -/
theorem readChars_eq (hv : h.Value w s v) (hp : h.mem.loads p v.length = some v) :
    h.readChars w s p = some v := by
  obtain ⟨d, hd⟩ := hv
  obtain ⟨t, ht⟩ := Option.isSome_iff_exists.1 hd.live
  simp [readChars, ht, hd.stringLength ht, hp]

/-- Reading the characters that a call has answered gives the value of the string, and no
value has changed. -/
theorem readAnswer_eq (hst : h'.store w = h.store w) (hv : h.Value w s v) {r : Option ℕ}
    (hr : ∀ p, r = some p → h'.mem.loads p v.length = some v) :
    ∃ a, h'.readAnswer w s r = some (.units a) ∧ ∀ u, a = some u → h.store w s = some u := by
  have hv' : h'.Value w s v := by
    rw [← store_eq_some_iff, hst, store_eq_some_iff]
    exact hv
  cases r with
  | none => exact ⟨none, rfl, nofun⟩
  | some p =>
      refine ⟨some v, by simp [readAnswer, readChars_eq hv' (hr p rfl)], fun u hu => ?_⟩
      rw [← Option.some.inj hu]
      exact store_eq_some_iff.2 hv

/-- A call that spoils a terminator: it has grown the buffer of `left`, gets no string for
it, and leaves the first character of `right` behind the characters of `left`. -/
def Spoils (w : ℕ) (h : StrHeap) : StrEvent × StrAnswer → Prop
  | (.concatStrings left right o, .str none) => ∃ u v, h.Value w left u ∧ h.Value w right v ∧
      h.Grows w o left (u.length + v.length + 1) ∧ v.head? ≠ some 0
  | _ => False

/-- A call of `js_ConcatStrings` spoils a terminator if it has grown the buffer of its
left operand, answers NULL and the right operand does not begin with a zero. -/
theorem spoils_iff {left right : ℕ} {o : StrAnswers} {u : List UInt16} (hu : h.Value w left u)
    (hv : h.Value w right v) {r : Option ℕ} :
    h.Spoils w (.concatStrings left right o, .str r) ↔
      r = none ∧ h.Grows w o left (u.length + v.length + 1) ∧ v.head? ≠ some 0 := by
  cases r with
  | some s => exact ⟨False.elim, fun hr => nomatch hr.1⟩
  | none =>
      constructor
      · rintro ⟨u', v', hu', hv', hg, hc⟩
        rw [hu.unique hu', hv.unique hv']
        exact ⟨rfl, hg, hc⟩
      · rintro ⟨_, hg, hc⟩
        exact ⟨u, v, hu, hv, hg, hc⟩

/-- **One call.**  It gets through, and does to the values what it should. -/
theorem execute_refines (hs : h.Sound w) {e : StrEvent} (he : h.Allowed w e) :
    ∃ h' a, h.execute w e = some (h', a) ∧ h'.Sound w ∧
      StrStore.Call (h.store w) (e, a) (h'.store w) ∧
      (h.Terminated → (h'.Terminated ↔ ¬h.Spoils w (e, a))) := by
  have hspoil : ∀ {h' : StrHeap} {a : StrAnswer}, (∀ l r o, e ≠ .concatStrings l r o) →
      (h.Terminated → h'.Terminated) → h.Terminated → (h'.Terminated ↔ ¬h.Spoils w (e, a)) := by
    intro h' a hne hterm hT
    refine iff_of_true (hterm hT) fun hsp => ?_
    cases e with
    | concatStrings l r o => exact hne l r o rfl
    | _ => exact hsp
  have hvalue : ∀ {x}, (h.things x).isSome → ∃ u, h.Value w x u := fun hx => hs.inv.value _ hx
  cases e with
  | newStringCopyN cs mu lk o =>
      obtain ⟨hlen, hlock, hroots⟩ := he
      obtain ⟨h', r, heq, hy, hterm⟩ :=
        newStringCopyN_eq hs o hroots
          (show h.Sources (.own cs) cs from List.take_length) hlen mu lk hlock
      exact ⟨h', .str r, by simp [execute, heq], hy.sound, hy.next, hspoil nofun hterm⟩
  | newDependentString base start length o =>
      obtain ⟨⟨t, ht, hle⟩, hroots, hbase⟩ := he
      obtain ⟨u, hu⟩ := hvalue (x := base) (by simp [ht])
      rw [hu.choose_spec.stringLength ht] at hle
      obtain ⟨h', r, heq, hterm, hy⟩ := newDependentString_eq hs o hroots hbase hu hle
      have hA := store_eq_some_iff.2 hu
      rcases hy with hy | ⟨hy, s, hr, hv⟩
      · exact ⟨h', .str r, by simp [execute, heq], hy.sound, ⟨u, hA, hle, .inl hy.next⟩,
          hspoil nofun hterm⟩
      · have heqs := hy.next.eq
        exact ⟨h', .str r, by simp [execute, heq], hy.sound,
          ⟨u, hA, hle, .inr ⟨heqs, s, hr, heqs ▸ store_eq_some_iff.2 hv⟩⟩, hspoil nofun hterm⟩
  | concatStrings left right o =>
      obtain ⟨hl, hr, hroots, hleft⟩ := he
      obtain ⟨u, hu⟩ := hvalue hl
      obtain ⟨v, hv⟩ := hvalue hr
      obtain ⟨h', r, heq, hterm, hy⟩ := concatStrings_eq hs o hroots hleft hu hv
      have hsp : (r = none → h.Grows w o left (u.length + v.length + 1) → v.head? = some 0) ↔
          ¬h.Spoils w (.concatStrings left right o, .str r) := by
        rw [spoils_iff hu hv]
        exact ⟨fun hT ⟨hr, hg, hne⟩ => hne (hT hr hg), fun hn hr hg =>
          Classical.byContradiction fun hne => hn ⟨hr, hg, hne⟩⟩
      have hA := store_eq_some_iff.2 hu
      have hB := store_eq_some_iff.2 hv
      rcases hy with hy | ⟨hy, s, hr, hv'⟩
      · exact ⟨h', .str r, by simp [execute, heq], hy.sound, ⟨u, v, hA, hB, .inl hy.next⟩,
          fun hT => (hterm hT).trans hsp⟩
      · have heqs := hy.next.eq
        exact ⟨h', .str r, by simp [execute, heq], hy.sound,
          ⟨u, v, hA, hB, .inr ⟨heqs, s, hr, heqs ▸ store_eq_some_iff.2 hv'⟩⟩,
          fun hT => (hterm hT).trans hsp⟩
  | stringChars s =>
      obtain ⟨u, hu⟩ := hvalue he
      obtain ⟨h', p, base, k, z, heq, hsh, hc⟩ := stringChars_eq hs.inv hu
      have hst := hsh.store_eq hs.inv
      have hread : h'.readChars w s p = some u := readChars_eq (hsh.value s u hu) hc.loads
      exact ⟨h', .units (some u), by simp [execute, heq, readAnswer, hread],
        ⟨hsh.inv hs.inv, hsh.locksFlat hs.flat⟩, ⟨hst, (store_eq_some_iff.2 hu).symm, nofun⟩,
        hspoil nofun fun hT => hT.shortens hsh⟩
  | undependString s answer =>
      obtain ⟨u, hu⟩ := hvalue he
      obtain ⟨h', r, heq, hy, hterm, hr⟩ := undependString_eq hs answer hu
      obtain ⟨a, hread, ha⟩ := readAnswer_eq hy.next.eq hu (r := r) fun p hp => by
        obtain ⟨_, _, _, _, _, _, hm⟩ := hr p hp
        simpa using hm.loads (i := 0) (j := u.length) (by omega)
      exact ⟨h', .units a, by simp [execute, heq, hread], hy.sound, ⟨hy.next.eq, ha⟩,
        hspoil nofun hterm⟩
  | getStringChars s answer =>
      obtain ⟨u, hu⟩ := hvalue he
      obtain ⟨h', r, heq, hs', hst, hterm, hr⟩ := getStringChars_eq hs answer hu
      obtain ⟨a, hread, ha⟩ := readAnswer_eq hst hu (r := r) fun p hp => by
        obtain ⟨_, _, _, _, _, _, hm, _⟩ := hr p hp
        simpa using hm.loads (i := 0) (j := u.length) (by omega)
      exact ⟨h', .units a, by simp [execute, heq, hread], hs', ⟨hst, ha⟩, hspoil nofun hterm⟩
  | lockGCThing s answer =>
      obtain ⟨t, ht, hm⟩ := he
      obtain ⟨h', ok, heq, hs', hst, hterm⟩ := lockGCThing_eq hs ht hm answer
      exact ⟨h', .done ok, by simp [execute, heq], hs', hst, hspoil nofun hterm⟩
  | unlockGCThing s =>
      obtain ⟨hlive, hne⟩ := he
      obtain ⟨t, ht⟩ := Option.isSome_iff_exists.1 hlive
      obtain ⟨h', heq, hs', hst, hterm⟩ := unlockGCThing_eq hs ht hne
      exact ⟨h', .done true, by simp [execute, heq], hs', ⟨hst, rfl⟩, hspoil nofun hterm⟩
  | gc roots =>
      obtain ⟨h', heq, hi', hf', hsv⟩ := gc_survives hs.inv hs.flat he
      exact ⟨h', .done true, by simp [execute, heq], ⟨hi', hf'⟩, ⟨hsv.next hs.inv, rfl⟩,
        hspoil nofun fun hT x => (hT x).survives hsv hs.inv⟩

/-! ### Runs -/

/-- The calls that keep to what is asked of them, with what they answer. -/
def Steps (w : ℕ) : StrHeap → StrEvent × StrAnswer → StrHeap → Prop :=
  Guarded (fun h e => h.Allowed w e.1) (Step w)

/-- **One call**: the invariants stay, the store makes the same call, and terminators are
lost where the call spoils one. -/
theorem Steps.sound {e : StrEvent × StrAnswer} (hst : Steps w h e h') (hs : h.Sound w) :
    h'.Sound w ∧ StrStore.Call (h.store w) e (h'.store w) ∧
      (h.Terminated → (h'.Terminated ↔ ¬h.Spoils w e)) := by
  obtain ⟨h₁, a, heq, hrest⟩ := execute_refines hs hst.1
  have hpair := Option.some.inj (heq.symm.trans hst.2)
  obtain ⟨rfl, rfl⟩ := Prod.mk.inj hpair
  exact hrest

/-- **The heap of strings is a store of values.**  Every run of the calls is one of the
store, from the store that has only the empty string, and with the same answers; and
wherever a run has come to, any call that keeps to what is asked gets through: it touches
no memory that is not its own, fails no assertion and comes to an end.  Source:
`js_ConcatStrings` (lines 80-254) and `js_NewDependentString` (lines 2520-2650) of
`js/src/jsstr.c`, `js_LockGCThingRT` and its counterpart (lines 734-845) of
`js/src/jsgc.c`. -/
theorem run_refines {o : StrAnswers} (hinit : initRuntimeStringState w o = some (some h₀))
    {es : List (StrEvent × StrAnswer)} (hrun : Run (Steps w) h₀ es h) :
    Run StrStore.Call (fun s => if s = h₀.emptyString then some [] else none) es (h.store w) ∧
      ∀ e, h.Allowed w e → (h.execute w e).isSome := by
  obtain ⟨hs, -, hst⟩ := initRuntimeStringState_sound hinit
  rw [← hst]
  clear hinit hst
  induction hrun with
  | nil h =>
      refine ⟨.nil _, fun e he => ?_⟩
      obtain ⟨h', a, heq, _⟩ := execute_refines hs he
      simp [heq]
  | cons hstep _ ih =>
      obtain ⟨hs', hcall, _⟩ := hstep.sound hs
      obtain ⟨hrest, hall⟩ := ih hs'
      exact ⟨.cons hcall hrest, hall⟩

/-- Two strings are made and joined, with the string that the collector has for it, and
the first is read, which is a prefix by then. -/
def joinCalls (thing : Option ℕ) : List (StrEvent × StrAnswer) :=
  [(.newStringCopyN [1, 2] true false ⟨some 2, none, none, some 1⟩, .str (some 1)),
    (.newStringCopyN [3] true false ⟨some 5, none, some [0, 1], some 2⟩, .str (some 2)),
    (.concatStrings 1 2 ⟨some 7, none, none, thing⟩, .str thing),
    (.stringChars 1, .units (some [1, 2]))]

/-- A run that joins two strings, with a string for the result or without one. -/
theorem run_join (thing : Option ℕ) (hthing : thing = some 3 ∨ thing = none) : ∃ h₀ h : StrHeap,
    initRuntimeStringState 2 ⟨some 1, none, none, some 0⟩ = some (some h₀) ∧
      Run (Steps 2) h₀ (joinCalls thing) h ∧ (h.things 1).isSome := by
  rcases hthing with rfl | rfl
  · exact ⟨_, _, rfl, .cons ⟨⟨by decide, by decide, nofun⟩, rfl⟩
      (.cons ⟨⟨by decide, by decide, fun _ hrs => Option.some.inj hrs ▸ by decide⟩, rfl⟩
        (.cons ⟨⟨by decide, by decide, nofun, nofun⟩, rfl⟩
          (.cons ⟨Eq.refl true, rfl⟩ (.nil _)))), Eq.refl true⟩
  · exact ⟨_, _, rfl, .cons ⟨⟨by decide, by decide, nofun⟩, rfl⟩
      (.cons ⟨⟨by decide, by decide, fun _ hrs => Option.some.inj hrs ▸ by decide⟩, rfl⟩
        (.cons ⟨⟨by decide, by decide, nofun, nofun⟩, rfl⟩
          (.cons ⟨Eq.refl true, rfl⟩ (.nil _)))), Eq.refl true⟩

/-- The first string is cut out of the third by then. -/
theorem run_join_prefix : ∃ (h₀ h : StrHeap) (t u : StrThing),
    initRuntimeStringState 2 ⟨some 1, none, none, some 0⟩ = some (some h₀) ∧
      Run (Steps 2) h₀ (joinCalls (some 3)) h ∧ h.things 1 = some t ∧ t.ref = .base 3 ∧
      t.isMutable = true ∧ t.isLocked = false ∧ h.things 3 = some u ∧ u.isLocked = false ∧
      ∀ r, h.locks r = 0 :=
  ⟨_, _, _, _, rfl, .cons ⟨⟨by decide, by decide, nofun⟩, rfl⟩
    (.cons ⟨⟨by decide, by decide, fun _ hrs => Option.some.inj hrs ▸ by decide⟩, rfl⟩
      (.cons ⟨⟨by decide, by decide, nofun, nofun⟩, rfl⟩
        (.cons ⟨Eq.refl true, rfl⟩ (.nil _)))), rfl, rfl, rfl, rfl, rfl, rfl, fun _ => rfl⟩

/-- The run is one of the store, and every further call gets through. -/
theorem run_refines_join : ∃ h₀ h : StrHeap,
    Run StrStore.Call (fun s => if s = h₀.emptyString then some [] else none) (joinCalls (some 3))
      (h.store 2) ∧ ∀ e, h.Allowed 2 e → (h.execute 2 e).isSome := by
  obtain ⟨h₀, h, hinit, hrun, _⟩ := run_join (some 3) (.inl rfl)
  exact ⟨h₀, h, run_refines hinit hrun⟩

/-- The invariants hold wherever a run comes to. -/
theorem run_sound {o : StrAnswers} (hinit : initRuntimeStringState w o = some (some h₀))
    {es : List (StrEvent × StrAnswer)} (hrun : Run (Steps w) h₀ es h) : h.Sound w :=
  hrun.invariant (P := fun h => h.Sound w) (fun _ _ _ hs hstep => (hstep.sound hs).1)
    (initRuntimeStringState_sound hinit).1

/-- **No buffer is lost and none is shared.**  In every heap that a run comes to, each
block of memory is the buffer of exactly one string, also where an allocation failed half
way.  Source: `js_ConcatStrings` (lines 132-250), which may take the buffer of its left
operand for the result, and `js_FinalizeStringRT` (lines 2704-2727) of `js/src/jsstr.c`.
-/
theorem run_owners {o : StrAnswers} (hinit : initRuntimeStringState w o = some (some h₀))
    {es : List (StrEvent × StrAnswer)} (hrun : Run (Steps w) h₀ es h) (p : ℕ) :
    (h.mem.block p).isSome ↔ ∃! s, ∃ t, h.things s = some t ∧ t.ref = .chars p := by
  have hs := run_sound hinit hrun
  constructor
  · intro hb
    obtain ⟨n, hb⟩ := Option.isSome_iff_exists.1 hb
    obtain ⟨s, t, ht, hr⟩ := (hs.inv.owned p n hb).resolve_left nofun
    refine ⟨s, ⟨t, ht, hr⟩, ?_⟩
    rintro s' ⟨t', ht', hr'⟩
    exact hs.inv.owner s' s t' t p ht' ht hr' hr
  · rintro ⟨s, ⟨t, ht, hr⟩, _⟩
    obtain ⟨n, hb⟩ := hs.inv.block_of_ref ht hr
    simp [hb]

/-- The buffer of the joined string has one owner. -/
theorem run_owners_join : ∃ h₀ h : StrHeap, Run (Steps 2) h₀ (joinCalls (some 3)) h ∧
    ((h.mem.block 7).isSome ↔ ∃! s, ∃ t, h.things s = some t ∧ t.ref = .chars 7) := by
  obtain ⟨h₀, h, hinit, hrun, _⟩ := run_join (some 3) (.inl rfl)
  exact ⟨h₀, h, hrun, run_owners hinit hrun 7⟩

/-- **Where terminators are lost.**  The runs in which every flat string has its zero all
along are those in which no call of `js_ConcatStrings` gets room for both strings, but no
string for it, with anything but a zero in front of the second: the buffer is shrunk
again, and the zero behind the first was overwritten.  Source: `js_ConcatStrings`
(lines 132-216 of `js/src/jsstr.c`); the zero is promised in `js/src/jsstr.h`,
lines 62-68. -/
theorem run_terminated_iff {o : StrAnswers} (hinit : initRuntimeStringState w o = some (some h₀))
    (es : List (StrEvent × StrAnswer)) (h : StrHeap) :
    Run (Guarded (fun h e => ¬h.Spoils w e) (Steps w)) h₀ es h ↔
      Run (Keeping Terminated (Steps w)) h₀ es h := by
  obtain ⟨hs, hT, _⟩ := initRuntimeStringState_sound hinit
  exact run_guarded_iff_keeping (J := fun h => h.Sound w)
    (fun _ _ _ hs hstep => (hstep.sound hs).1)
    (fun _ _ _ hs hT hstep => (hstep.sound hs).2.2 hT) hs hT

/-- Without a string for both, the 3 is left behind the first. -/
theorem run_terminated_join : ∃ h₀ h : StrHeap, Run (Steps 2) h₀ (joinCalls none) h ∧
    (Run (Guarded (fun h e => ¬h.Spoils 2 e) (Steps 2)) h₀ (joinCalls none) h ↔
      Run (Keeping Terminated (Steps 2)) h₀ (joinCalls none) h) := by
  obtain ⟨h₀, h, hinit, hrun, _⟩ := run_join none (.inr rfl)
  exact ⟨h₀, h, hrun, run_terminated_iff hinit (joinCalls none) h⟩

/-! ### Locks on dependent strings -/

section

variable {y : ℕ} {q : StrThing}

/-- A lock changes nothing else about a string. -/
theorem things_lock (ht : h.things s = some t)
    (hq : (h.set s { t with isLocked := true }).things y = some q) :
    ∃ u, h.things y = some u ∧ q.ref = u.ref ∧ q.isMutable = u.isMutable ∧
      (u.isLocked = true → q.isLocked = true) := by
  dsimp only [StrHeap.set] at hq
  split_ifs at hq with hy
  · obtain rfl := Option.some.inj hq
    exact ⟨t, by rw [hy, ht], rfl, rfl, fun _ => rfl⟩
  · exact ⟨q, hq, rfl, rfl, id⟩

/-- Nor about the values. -/
theorem Denotes.lock (ht : h.things s = some t) (hd : h.Denotes w d x v) :
    (h.set s { t with isLocked := true }).Denotes w d x v := by
  induction hd with
  | @flat x p n t' v ht' hr hl hlt hn hm =>
      by_cases hx : x = s
      · subst hx
        obtain rfl := Option.some.inj (ht.symm.trans ht')
        exact .flat (if_pos rfl) hr hl hlt hn hm
      · exact .flat ((if_neg hx).trans ht') hr hl hlt hn hm
  | @dep d x b k n t' u ht' hr hmut hw hn hk hb ih =>
      by_cases hx : x = s
      · subst hx
        obtain rfl := Option.some.inj (ht.symm.trans ht')
        exact .dep (if_pos rfl) hr hmut hw hn hk ih
      · exact .dep ((if_neg hx).trans ht') hr hmut hw hn hk ih

end

/-- A heap is in order with a lock on any string. -/
theorem Inv.lock (hi : h.Inv w l) (ht : h.things s = some t) :
    (h.set s { t with isLocked := true }).Inv w l where
  mem := hi.mem
  below := hi.below
  top y hy := by
    obtain ⟨q, hq⟩ := Option.isSome_iff_exists.1 hy
    obtain ⟨u, hu, -⟩ := things_lock ht hq
    exact hi.top y (by rw [hu]; rfl)
  value y hy := by
    obtain ⟨q, hq⟩ := Option.isSome_iff_exists.1 hy
    obtain ⟨u, hu, -⟩ := things_lock ht hq
    obtain ⟨v, d, hd⟩ := hi.value y (by rw [hu]; rfl)
    exact ⟨v, d, hd.lock ht⟩
  owner y y' q q' p hq hq' hp hp' := by
    obtain ⟨u, hu, hr, -⟩ := things_lock ht hq
    obtain ⟨u', hu', hr', -⟩ := things_lock ht hq'
    exact hi.owner y y' u u' p hu hu' (hr ▸ hp) (hr' ▸ hp')
  owned p n hb := by
    refine (hi.owned p n hb).imp_right ?_
    rintro ⟨y, u, hu, hr⟩
    by_cases hy : y = s
    · subst hy
      obtain rfl := Option.some.inj (ht.symm.trans hu)
      exact ⟨y, _, if_pos rfl, hr⟩
    · exact ⟨y, u, (if_neg hy).trans hu, hr⟩
  loose p y q hp hq := by
    obtain ⟨u, hu, hr, -⟩ := things_lock ht hq
    rw [hr]
    exact hi.loose p y u hp hu
  locks y hy := by
    obtain ⟨u, hu, hlk⟩ := hi.locks y hy
    by_cases hys : y = s
    · exact ⟨_, if_pos hys, rfl⟩
    · exact ⟨u, (if_neg hys).trans hu, hlk⟩
  empty := by
    obtain ⟨⟨d, hd⟩, u, hu, hlk, hmut⟩ := hi.empty
    refine ⟨⟨d, hd.lock ht⟩, ?_⟩
    by_cases he : h.emptyString = s
    · rw [he, ht] at hu
      obtain rfl := Option.some.inj hu
      exact ⟨_, if_pos he, rfl, hmut⟩
    · exact ⟨u, (if_neg he).trans hu, hlk, hmut⟩

/-- **A lock on a mutable string is its flag**: `GC_TYPE_IS_STRING` is not true of it
(`js/src/jsgc.c`, lines 722-730), so it gets no entry in the table from which the collector
marks, and nothing is marked with it. -/
theorem lockGCThing_mutable {answer : Bool} (ht : h.things s = some t) (hm : t.isMutable = true)
    (hl : t.isLocked = false) :
    h.lockGCThing w answer s = some (h.set s { t with isLocked := true }, true) := by
  simp [lockGCThing, ht, hm, hl]

/-- **A collection keeps the values of what it keeps, exactly if it keeps the bases of the
locked strings.**  Strings with a lock are not finalized; the base of one is, unless it is
reached from elsewhere, since `GC_TYPE_IS_STRING` leaves out the type of mutable strings:
the first lock of a dependent one does not enter it in `rt->gcLocksHash`, whose things
`gc_lock_marker` marks.  Source: `js_LockGCThingRT` (lines 716-845), `gc_lock_marker`
(lines 1496-1504) and `js_GC` (lines 1531-1900) of `js/src/jsgc.c`. -/
theorem gc_values_iff (hi : h.Inv w l) (hroots : ∀ r ∈ roots, (h.things r).isSome)
    (hgc : h.gc w roots = some h') :
    (∀ s v, (h'.things s).isSome → h.Value w s v → h'.Value w s v) ↔
      ∀ s t b, h.things s = some t → t.isLocked = true → t.ref = .base b →
        h.Marked roots b ∨ ∃ u, h.things b = some u ∧ u.isLocked = true := by
  obtain ⟨h₁, heq, hs⟩ := gc_eq hi hroots
  obtain rfl := Option.some.inj (hgc.symm.trans heq)
  have hfreed : ∀ b, (h.things b).isSome → (¬h.Freed roots b ↔
      h.Marked roots b ∨ ∃ u, h.things b = some u ∧ u.isLocked = true) := by
    intro b hb
    obtain ⟨u, hu⟩ := Option.isSome_iff_exists.1 hb
    simp only [Freed, hu, Option.some.injEq, exists_eq_left', not_and_or, not_not,
      Bool.not_eq_false]
  have hlive : ∀ s t b, h.things s = some t → t.ref = .base b → (h.things b).isSome := by
    intro s t b ht hr
    rcases hi.cases ht with ⟨p, n, v, hr', _⟩ | ⟨d, b', k, n, u, hr', _, _, _, _, _, hb, _⟩
    · rw [hr] at hr'
      cases hr'
    · rw [StrRef.base.inj (hr.symm.trans hr')]
      exact hb.live
  constructor
  · intro hval s t b ht hlk hr
    rw [← hfreed b (hlive s t b ht hr)]
    intro hg
    -- the locked string is still there, and its base is not
    have hns : ¬h.Freed roots s := by
      rintro ⟨t', ht', _, hl'⟩
      obtain rfl := Option.some.inj (ht.symm.trans ht')
      rw [hlk] at hl'
      cases hl'
    have ht' := (hs.kept s hns).trans ht
    obtain ⟨v, hv⟩ := hi.value s (by simp [ht])
    obtain ⟨e, he⟩ := hval s v (by simp [ht']) hv
    cases he with
    | flat ht'' hr' =>
        obtain rfl := Option.some.inj (ht'.symm.trans ht'')
        rw [hr] at hr'
        cases hr'
    | dep ht'' hr' _ _ _ _ hb =>
        obtain rfl := Option.some.inj (ht'.symm.trans ht'')
        have hb' := hb.live
        rw [← StrRef.base.inj (hr.symm.trans hr'), hs.gone b hg] at hb'
        cases hb'
  · intro hcond s v hsome hv
    obtain ⟨d, hd⟩ := hv
    refine ⟨d, hd.swept hi.owns hs (fun x t b hx ht hr => not_freed_base hx ht hr fun hlk => ?_) ?_⟩
    · rw [hfreed b (hlive x t b ht hr)]
      exact hcond x t b ht hlk hr
    · intro hg
      rw [hs.gone s hg] at hsome
      cases hsome

/-- The prefix of two joined strings is locked, and no root is left: the collection keeps it
and frees the string that has its characters. -/
theorem gc_values_join : ∃ h h₁ h' : StrHeap, h.Sound 2 ∧ h.lockGCThing 2 true 1 = some (h₁, true) ∧
    h₁.gc 2 [] = some h' ∧ (h'.things 1).isSome ∧
    ¬∀ s v, (h'.things s).isSome → h₁.Value 2 s v → h'.Value 2 s v := by
  obtain ⟨h₀, h, t, u, hinit, hrun, ht, hr, hm, hl, hu, hul, hlocks⟩ := run_join_prefix
  have hs := run_sound hinit hrun
  have hi₁ := hs.inv.lock ht
  have hroots : ∀ r ∈ ([] : List ℕ), ((h.set 1 { t with isLocked := true }).things r).isSome :=
    fun r hr => absurd hr List.not_mem_nil
  obtain ⟨h', heq, hswept⟩ := gc_eq hi₁ hroots
  have ht₁ : (h.set 1 { t with isLocked := true }).things 1 = some { t with isLocked := true } := by
    simp [StrHeap.set]
  refine ⟨h, _, h', hs, lockGCThing_mutable ht hm hl, heq, ?_, ?_⟩
  · rw [hswept.kept 1 fun hfreed => ?_, ht₁]
    · rfl
    · obtain ⟨t', ht', -, hl'⟩ := hfreed
      obtain rfl := Option.some.inj (ht₁.symm.trans ht')
      cases hl'
  · intro hval
    obtain hmarked | ⟨u', hu', hul'⟩ :=
      (gc_values_iff hi₁ hroots heq).1 hval 1 _ 3 ht₁ rfl hr
    · obtain ⟨r, hr, -⟩ := hmarked
      rw [List.nil_append, lockedThings, List.mem_filter] at hr
      have hpos : 0 < h.locks r := of_decide_eq_true hr.2
      rw [hlocks] at hpos
      exact absurd hpos (lt_irrefl 0)
    · obtain rfl := Option.some.inj (hu.symm.trans hu')
      rw [hul] at hul'
      cases hul'

end StrHeap

end ProntoScript
