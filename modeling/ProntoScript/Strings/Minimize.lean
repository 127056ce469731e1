/-
# Shortening the chains of bases

`js_MinimizeDependentStrings` rewrites the dependent strings along a chain so that each
depends on the flat string at its end.  The recursion that does so stops at a depth of
100, from where a loop looks for the end and rewrites nothing in between.  Two lengths do
not fit everywhere: a start beyond `JSSTRDEP_START_MASK` leaves the string as it is, and
only a prefix can be longer than `JSSTRDEP_LENGTH_MASK`.  That the word of a prefix is
never packed with a start although it is too long for it rests on the chain: it starts
behind 0 only where some base on it is short (`DepWord.lt_of_pos`).

`Inv` is what holds of the heap between the calls: every string has a value, every
buffer is one flat string's.  `Shortens` is what rewriting chains may change, and it keeps
both.
-/

import ProntoScript.Strings.Denote

namespace ProntoScript

open HeapBlocks

variable {w : ℕ}

/-! ### Stretches -/

/-- A piece of a piece is a piece. -/
theorem drop_take_drop_take {α : Type*} (u : List α) {i j k l : ℕ} (h : i + j ≤ l) :
    (((u.drop k).take l).drop i).take j = (u.drop (k + i)).take j := by
  rw [List.drop_take, List.take_take, List.drop_drop, Nat.min_eq_left (by omega)]

/-- The length of a piece within the list. -/
theorem length_drop_take {α : Type*} {u : List α} {k n : ℕ} (h : k + n ≤ u.length) :
    ((u.drop k).take n).length = n := by
  simp
  omega

namespace StrHeap

/-! ### The invariant -/

/-- What holds of the heap between the calls, and within one that has a buffer that is not
yet a string's. -/
structure Inv (w : ℕ) (loose : Option ℕ) (h : StrHeap) : Prop where
  mem : h.mem.WF
  below : ∀ p n, h.mem.block p = some n → p + n ≤ addressLimit w
  top : ∀ s, (h.things s).isSome → s < h.top
  /-- Every string has a value. -/
  value : ∀ s, (h.things s).isSome → ∃ v, h.Value w s v
  /-- Every buffer is one string's. -/
  owner : ∀ s s' t t' p, h.things s = some t → h.things s' = some t' → t.ref = .chars p →
    t'.ref = .chars p → s = s'
  /-- No buffer is lost. -/
  owned : ∀ p n, h.mem.block p = some n →
    loose = some p ∨ ∃ s t, h.things s = some t ∧ t.ref = .chars p
  loose : ∀ p s t, loose = some p → h.things s = some t → t.ref ≠ .chars p
  locks : ∀ s, 0 < h.locks s → ∃ t, h.things s = some t ∧ t.isLocked = true
  empty : h.Value w h.emptyString [] ∧
    ∃ t, h.things h.emptyString = some t ∧ t.isLocked = true ∧ t.isMutable = false

variable {h h' h'' : StrHeap} {s x d k n : ℕ} {t t' : StrThing} {u v : List UInt16} {l : Option ℕ}

/-- A string that is live has the form its value says. -/
theorem Inv.cases (hi : h.Inv w l) (ht : h.things s = some t) :
    (∃ p n v, t.ref = .chars p ∧ t.length = v.length ∧ v.length < n ∧ v.length < 2 ^ (2 * w) ∧
      t.isDependent w = false ∧ h.mem.Holds p n v ∧ h.Denotes w 0 s v) ∨
    (∃ d b k n u, t.ref = .base b ∧ t.isMutable = true ∧ DepWord w t.length k n ∧ 0 < n ∧
      k + n ≤ u.length ∧ t.isDependent w = true ∧ h.Denotes w d b u ∧
      h.Denotes w (d + 1) s ((u.drop k).take n)) := by
  obtain ⟨v, d, hd⟩ := hi.value s (by simp [ht])
  cases hd with
  | flat ht' hr hl hlt hn hm =>
      obtain rfl := Option.some.inj (ht.symm.trans ht')
      exact .inl ⟨_, _, _, hr, hl, hn, hlt, not_isDependent (hl ▸ hlt), hm,
        .flat ht hr hl hlt hn hm⟩
  | dep ht' hr hmut hw hn hk hb =>
      obtain rfl := Option.some.inj (ht.symm.trans ht')
      exact .inr ⟨_, _, _, _, _, hr, hmut, hw, hn, hk, hw.isDependent, hb,
        .dep ht hr hmut hw hn hk hb⟩

/-- Where no string loses its value, the strings that there were have the same values. -/
theorem Inv.value_iff (hi : h.Inv w l) (hv : ∀ v, h.Value w s v → h'.Value w s v)
    (hl : (h'.things s).isSome → (h.things s).isSome) : h'.Value w s v ↔ h.Value w s v := by
  refine ⟨fun hv' => ?_, hv v⟩
  obtain ⟨_, hd⟩ := hv'
  obtain ⟨u, hu⟩ := hi.value s (hl hd.live)
  rw [Value.unique ⟨_, hd⟩ (hv u hu)]
  exact hu

/-! ### Chains rewritten -/

/-- A dependent string that still is one. -/
structure Rebased (w : ℕ) (t t' : StrThing) : Prop where
  old : t.isDependent w = true ∧ ∃ b, t.ref = .base b
  new : t'.isDependent w = true ∧ ∃ b, t'.ref = .base b
  isMutable : t'.isMutable = t.isMutable
  isLocked : t'.isLocked = t.isLocked

/-- `h'` is `h` with other words for some of its dependent strings. -/
structure Shortens (w : ℕ) (h h' : StrHeap) : Prop where
  mem : h'.mem = h.mem
  top : h'.top = h.top
  emptyString : h'.emptyString = h.emptyString
  locks : h'.locks = h.locks
  thing : ∀ x, h'.things x = h.things x ∨
    ∃ t t', h.things x = some t ∧ h'.things x = some t' ∧ Rebased w t t'
  value : ∀ x v, h.Value w x v → h'.Value w x v

/-- No word need change. -/
theorem Shortens.refl (h : StrHeap) : h.Shortens w h :=
  ⟨rfl, rfl, rfl, rfl, fun _ => .inl rfl, fun _ _ hv => hv⟩

/-- Words may change twice. -/
theorem Shortens.trans (h₁ : h.Shortens w h') (h₂ : h'.Shortens w h'') : h.Shortens w h'' where
  mem := h₂.mem.trans h₁.mem
  top := h₂.top.trans h₁.top
  emptyString := h₂.emptyString.trans h₁.emptyString
  locks := h₂.locks.trans h₁.locks
  value x v hv := h₂.value x v (h₁.value x v hv)
  thing x := by
    rcases h₁.thing x with e₁ | ⟨t, t', ht, ht', hr⟩
    · rcases h₂.thing x with e₂ | ⟨t, t', ht, ht', hr⟩
      · exact .inl (e₂.trans e₁)
      · exact .inr ⟨t, t', e₁ ▸ ht, ht', hr⟩
    · rcases h₂.thing x with e₂ | ⟨u, u', hu, hu', hr'⟩
      · exact .inr ⟨t, t', ht, e₂.trans ht', hr⟩
      · obtain rfl := Option.some.inj (hu.symm.trans ht')
        exact .inr ⟨t, u', ht, hu', hr.old, hr'.new, hr'.isMutable.trans hr.isMutable,
          hr'.isLocked.trans hr.isLocked⟩

/-- The strings are the same. -/
theorem Shortens.live (hs : h.Shortens w h') : (h'.things x).isSome = (h.things x).isSome := by
  rcases hs.thing x with e | ⟨t, t', ht, ht', _⟩
  · rw [e]
  · simp [ht, ht']

/-- The flat strings stay what they are. -/
theorem Shortens.chars (hs : h.Shortens w h') (ht' : h'.things x = some t') {p : ℕ}
    (hr : t'.ref = .chars p) : h.things x = some t' := by
  rcases hs.thing x with e | ⟨_, t'', _, ht'', hreb⟩
  · exact e ▸ ht'
  · obtain rfl := Option.some.inj (ht'.symm.trans ht'')
    obtain ⟨b, hb⟩ := hreb.new.2
    rw [hr] at hb
    cases hb

/-- Flat strings are as they were. -/
theorem Shortens.flat (hs : h.Shortens w h') (ht : h.things x = some t) {p : ℕ}
    (hr : t.ref = .chars p) : h'.things x = some t := by
  rcases hs.thing x with e | ⟨t₀, _, ht₀, _, hreb⟩
  · exact e ▸ ht
  · obtain rfl := Option.some.inj (ht.symm.trans ht₀)
    obtain ⟨b, hb⟩ := hreb.old.2
    rw [hr] at hb
    cases hb

/-- What is left of a string's flags. -/
theorem Shortens.flags (hs : h.Shortens w h') (ht : h.things x = some t) :
    ∃ t', h'.things x = some t' ∧ t'.isMutable = t.isMutable ∧ t'.isLocked = t.isLocked := by
  rcases hs.thing x with e | ⟨t₀, t', ht₀, ht', hreb⟩
  · exact ⟨t, e ▸ ht, rfl, rfl⟩
  · obtain rfl := Option.some.inj (ht.symm.trans ht₀)
    exact ⟨t', ht', hreb.isMutable, hreb.isLocked⟩

/-- The invariant stays, the values being the same. -/
theorem Shortens.inv (hs : h.Shortens w h') (hi : h.Inv w l) : h'.Inv w l where
  mem := hs.mem ▸ hi.mem
  below := hs.mem ▸ hi.below
  top x hx := hs.top ▸ hi.top x (hs.live ▸ hx)
  value x hx := by
    obtain ⟨v, hv⟩ := hi.value x (hs.live ▸ hx)
    exact ⟨v, hs.value x v hv⟩
  owner x y t u p hx hy hr hr' := hi.owner x y t u p (hs.chars hx hr) (hs.chars hy hr') hr hr'
  owned p n hb := by
    rcases hi.owned p n (hs.mem ▸ hb) with hl | ⟨x, t, ht, hr⟩
    · exact .inl hl
    · exact .inr ⟨x, t, hs.flat ht hr, hr⟩
  loose p x t hl ht hr := hi.loose p x t hl (hs.chars ht hr) hr
  locks x hx := by
    obtain ⟨t, ht, hl⟩ := hi.locks x (hs.locks ▸ hx)
    obtain ⟨t', ht', _, hl'⟩ := hs.flags ht
    exact ⟨t', ht', hl'.trans hl⟩
  empty := by
    obtain ⟨hv, t, ht, hl, hm⟩ := hi.empty
    obtain ⟨t', ht', hm', hl'⟩ := hs.flags ht
    rw [hs.emptyString]
    exact ⟨hs.value _ _ hv, t', ht', hl'.trans hl, hm'.trans hm⟩

/-- A dependent string may depend on a flat one instead, from further on. -/
theorem Shortens.set {base : ℕ} (ht : h.things s = some t) (hb : h.Denotes w 0 base u)
    (hold : t.isDependent w = true ∧ ∃ b, t.ref = .base b) (hmut : t.isMutable = true)
    (hv : h.Value w s ((u.drop k).take n)) (hn : 0 < n) (hk : k + n ≤ u.length)
    (hw : DepWord w t'.length k n) (hr : t'.ref = .base base) (hmut' : t'.isMutable = t.isMutable)
    (hl' : t'.isLocked = t.isLocked) : h.Shortens w (h.set s t') where
  mem := rfl
  top := rfl
  emptyString := rfl
  locks := rfl
  thing x := by
    by_cases hx : x = s
    · subst hx
      exact .inr ⟨t, t', ht, by simp [StrHeap.set], hold, ⟨hw.isDependent, _, hr⟩, hmut', hl'⟩
    · exact .inl (by simp [StrHeap.set, hx])
  value x v hx := by
    refine Value.set (fun v' hv' => ?_) hx
    rw [Value.unique hv' hv]
    have hne : base ≠ s := by
      rintro rfl
      have hd := hb.isDependent ht
      rw [hold.1] at hd
      simp at hd
    have hb' : (h.set s t').Denotes w 0 base u := by
      cases hb with
      | flat htb hrb hl hlt hn hm =>
          exact .flat (by simp [StrHeap.set, hne, htb]) hrb hl hlt hn hm
    exact ⟨1, .dep (by simp [StrHeap.set]) hr (hmut'.trans hmut) hw hn hk hb'⟩

/-! ### `js_MinimizeDependentStrings` -/

/-- What the walk along a chain finds: `v` is what the flat string `base` has from `k` on. -/
structure Found (w : ℕ) (h : StrHeap) (base k : ℕ) (v u : List UInt16) : Prop where
  flat : h.Denotes w 0 base u
  le : k + v.length ≤ u.length
  eq : v = (u.drop k).take v.length
  short : 0 < k → v.length < 2 ^ w

/-- What lies within a string fits the length words of its dependent strings. -/
theorem Found.length_lt {base : ℕ} (hf : h.Found w base k v u) : k + v.length < 2 ^ (2 * w) := by
  have hle := hf.le
  cases hf.flat with
  | flat _ _ _ hlt => omega

/-- The characters of a string whose base has been found. -/
theorem Found.dep {base : ℕ} (hf : h.Found w base k v u) {j m : ℕ} (hj : j + m ≤ v.length)
    (hshort : 0 < j → m < 2 ^ w) :
    h.Found w base (j + k) ((v.drop j).take m) u := by
  have hlen := length_drop_take hj
  have hle := hf.le
  refine ⟨hf.flat, by omega, ?_, fun hpos => ?_⟩
  · rw [hlen]
    conv_lhs => rw [hf.eq]
    rw [drop_take_drop_take u hj, Nat.add_comm]
  · rw [hlen]
    rcases Nat.eq_zero_or_pos j with hj₀ | hj₀
    · have := hf.short (by omega)
      omega
    · exact hshort hj₀

/-- The characters of a dependent string whose base is flat. -/
theorem found_of_flat {base : ℕ} (hb : h.Denotes w 0 base u) (hw : DepWord w t.length k n)
    (hk : k + n ≤ u.length) : h.Found w base k ((u.drop k).take n) u := by
  have hlen := length_drop_take hk
  refine ⟨hb, by omega, by rw [hlen], fun hpos => ?_⟩
  rw [hlen]
  exact hw.lt_of_pos hpos

/-- Along a chain of bases, from any start, the loop finds the flat string at its end. -/
theorem chaseBase_eq (hd : h.Denotes w (d + 1) s v) {fuel : ℕ} (hfuel : d < fuel) (start : ℕ) :
    ∃ base k u, h.Found w base k v u ∧
      h.chaseBase w fuel start s = some ((start + k) % sizeT w, base) := by
  induction d generalizing s v fuel start with
  | zero =>
      obtain ⟨fuel, rfl⟩ : ∃ f, fuel = f + 1 := ⟨fuel - 1, by omega⟩
      cases hd with
      | @dep _ _ b k n t u ht hr hmut hw hn hk hb =>
          refine ⟨b, k, u, found_of_flat hb hw hk, ?_⟩
          obtain ⟨tb, htb⟩ := Option.isSome_iff_exists.1 hb.live
          have hflat := hb.isDependent htb
          simp [chaseBase, ht, hr, StrThing.strdepBase, htb, hflat, hw.strdepStart]
  | succ d ih =>
      obtain ⟨fuel, rfl⟩ : ∃ f, fuel = f + 1 := ⟨fuel - 1, by omega⟩
      cases hd with
      | @dep _ _ b k n t u ht hr hmut hw hn hk hb =>
          obtain ⟨base, k', u', hf, heq⟩ :=
            ih hb (show d < fuel by omega) ((start + k) % sizeT w)
          obtain ⟨tb, htb⟩ := Option.isSome_iff_exists.1 hb.live
          have hdep := hb.isDependent htb
          refine ⟨base, k + k', u', hf.dep hk hw.lt_of_pos, ?_⟩
          rw [Nat.mod_add_mod, Nat.add_assoc] at heq
          simpa [chaseBase, ht, hr, StrThing.strdepBase, htb, hdep, hw.strdepStart] using heq

/-- Writing down what was found changes no value. -/
theorem rebase_eq {base : ℕ} (ht : h.things s = some t)
    (hd : h.Denotes w (d + 1) s v) (hf : h.Found w base k v u) (hstart : t.strdepStart w ≤ k) :
    ∃ h', h.rebase w s k base = some (h', k, base) ∧ h.Shortens w h' ∧ h'.Found w base k v u ∧
      ∀ x, x ≠ s → h'.things x = h.things x := by
  have hdep := hd.isDependent ht
  cases hd with
  | @dep _ _ b j n t' u' ht' hr hmut hw hn hj hb =>
      obtain rfl := Option.some.inj (ht.symm.trans ht')
      have hlen := length_drop_take hj
      obtain ⟨hflat, hle, heq, hshort⟩ := hf
      rw [hlen] at hle heq hshort
      have hval : h.Value w s ((u.drop k).take n) :=
        heq ▸ ⟨_, .dep ht hr hmut hw hn hj hb⟩
      have hkeep : ∀ t₁ : StrThing, t₁.ref = .base base → t₁.isMutable = t.isMutable →
          t₁.isLocked = t.isLocked → DepWord w t₁.length k n →
          h.Shortens w (h.set s t₁) ∧ (h.set s t₁).Found w base k ((u'.drop j).take n) u := by
        intro t₁ h₁ h₂ h₃ h₄
        have hs : h.Shortens w (h.set s t₁) :=
          Shortens.set ht hflat ⟨hw.isDependent, _, hr⟩ hmut hval hn hle h₄ h₁ h₂ h₃
        refine ⟨hs, ?_, by rw [hlen]; exact hle, by rw [hlen]; exact heq, by rwa [hlen]⟩
        cases hflat with
        | flat htb hrb hl hlt hn hm => exact .flat (hs.flat htb hrb) hrb hl hlt hn hm
      have hset : ∀ (t₁ : StrThing) x, x ≠ s → (h.set s t₁).things x = h.things x :=
        fun t₁ x hx => by simp [StrHeap.set, hx]
      rw [hw.strdepStart] at hstart
      simp only [rebase, ht, Option.bind_eq_bind, Option.bind_some]
      by_cases h₀ : k = 0
      · -- a start of 0 is that of a prefix
        have hj₀ : j = 0 := by omega
        have hpre : t.isPrefix w = true := by rw [hw.isPrefix, hj₀]; rfl
        obtain ⟨hs, hf'⟩ := hkeep { t with ref := .base base } rfl rfl rfl (by
          rw [h₀, ← hj₀]
          exact hw)
        exact ⟨_, by rw [if_pos h₀, if_pos hpre], hs, hf', hset _⟩
      · rw [if_neg h₀]
        by_cases hmask : k ≤ strdepMask w
        · have hk : k < 2 ^ w := by
            have := Nat.two_pow_pos w
            simp only [strdepMask] at hmask
            omega
          obtain ⟨hs, hf'⟩ := hkeep
            { t with length := startAndLength w k (t.strdepLength w), ref := .base base }
            rfl rfl rfl (by
              rw [hw.strdepLength]
              exact .sub (by omega) hk (hshort (by omega)))
          exact ⟨_, by rw [if_pos hmask], hs, hf', hset _⟩
        · exact ⟨h, by rw [if_neg hmask], .refl h, ⟨hflat, by rw [hlen]; exact hle,
            by rw [hlen]; exact heq, by rwa [hlen]⟩, fun _ _ => rfl⟩

/-- `js_MinimizeDependentStrings` of a string whose base is flat has nothing to do. -/
theorem minimizeDependentStrings_of_flat {base : ℕ} {tb : StrThing} (levels : ℕ)
    (ht : h.things s = some t) (hr : t.ref = .base base) (htb : h.things base = some tb)
    (hdep : tb.isDependent w = false) :
    h.minimizeDependentStrings w levels s = some (h, t.strdepStart w, base) := by
  rw [minimizeDependentStrings]
  simp [ht, hr, StrThing.strdepBase, htb, hdep]

/-- **Shortening a chain changes no value.**  However deep it may recurse,
`js_MinimizeDependentStrings` answers where in which buffer the characters are, and only
rewrites strings that are no farther from them than the one it was called for. -/
theorem minimizeDependentStrings_eq (hi : h.Inv w l) (hd : h.Denotes w (d + 1) s v) (levels : ℕ) :
    ∃ h' base k u, h.minimizeDependentStrings w levels s = some (h', k, base) ∧
      h.Shortens w h' ∧ h'.Found w base k v u ∧
      ∀ x e z, h.Denotes w e x z → d + 1 < e → h'.things x = h.things x := by
  have hsize : ∀ {h' : StrHeap} {base k : ℕ} {v u : List UInt16}, h'.Found w base k v u →
      k % sizeT w = k := fun hf => by
    refine Nat.mod_eq_of_lt (Nat.lt_of_lt_of_le (Nat.lt_of_le_of_lt (Nat.le_add_right _ _)
      hf.length_lt) ?_)
    exact Nat.pow_le_pow_right (by omega) (by omega)
  induction levels generalizing d s v with
  | zero =>
      have hd₀ := hd
      cases hd with
      | @dep _ _ b k n t u ht hr hmut hw hn hk hb =>
          obtain ⟨tb, htb⟩ := Option.isSome_iff_exists.1 hb.live
          have hbd := hb.isDependent htb
          cases d with
          | zero =>
              refine ⟨h, b, k, u, ?_, .refl h, found_of_flat hb hw hk, fun _ _ _ _ _ => rfl⟩
              rw [minimizeDependentStrings_of_flat 0 ht hr htb (by simpa using hbd),
                hw.strdepStart]
          | succ d =>
              -- the loop starts at the base, and needs no more rounds than there are strings
              have hfuel : d < h.top := by have := hb.lt_top hi.top; omega
              obtain ⟨base, k', u', hf, heq⟩ := chaseBase_eq hb hfuel k
              have hf' := hf.dep hk hw.lt_of_pos
              rw [hsize hf'] at heq
              obtain ⟨h', hre, hs, hf'', hfar⟩ := rebase_eq ht hd₀ hf'
                (by rw [hw.strdepStart]; omega)
              refine ⟨h', base, k + k', u', ?_, hs, hf'', fun x e z hx he => hfar x ?_⟩
              · rw [minimizeDependentStrings]
                simp [ht, hr, StrThing.strdepBase, htb, hbd, hw.strdepStart, heq, hre]
              · rintro rfl
                have := (hx.unique hd₀).1
                omega
  | succ levels ih =>
      have hd₀ := hd
      cases hd with
      | @dep _ _ b k n t u ht hr hmut hw hn hk hb =>
          obtain ⟨tb, htb⟩ := Option.isSome_iff_exists.1 hb.live
          have hbd := hb.isDependent htb
          cases d with
          | zero =>
              refine ⟨h, b, k, u, ?_, .refl h, found_of_flat hb hw hk, fun _ _ _ _ _ => rfl⟩
              rw [minimizeDependentStrings_of_flat _ ht hr htb (by simpa using hbd),
                hw.strdepStart]
          | succ d =>
              -- the recursion leaves `s` alone, which is farther away than its base
              obtain ⟨h₁, base, k', u', heq, hs₁, hf, hfar₁⟩ := ih hb
              have ht₁ : h₁.things s = some t := (hfar₁ s _ _ hd₀ (by omega)).trans ht
              obtain ⟨e, hd₁⟩ := hs₁.value s _ ⟨_, hd₀⟩
              have hf' := hf.dep hk hw.lt_of_pos
              have he : 0 < e := by
                have := hd₁.isDependent ht₁
                rw [hw.isDependent] at this
                simpa using this.symm
              obtain ⟨e, rfl⟩ : ∃ f, e = f + 1 := ⟨e - 1, by omega⟩
              obtain ⟨h', hre, hs, hf'', hfar⟩ := rebase_eq ht₁ hd₁ hf'
                (by rw [hw.strdepStart]; omega)
              refine ⟨h', base, k + k', u', ?_, hs₁.trans hs, hf'', fun x e z hx he => ?_⟩
              · rw [minimizeDependentStrings]
                simp [ht, hr, StrThing.strdepBase, htb, hbd, hw.strdepStart, heq, hsize hf', hre]
              · have hxs : x ≠ s := by
                  rintro rfl
                  have := (hx.unique hd₀).1
                  omega
                exact (hfar x hxs).trans (hfar₁ x e z hx (by omega))

/-! ### `JSSTRING_CHARS` -/

/-- The characters `v` are at the address `p`, in the buffer of the flat string `base`. -/
structure CharsAt (w : ℕ) (h : StrHeap) (p base k : ℕ) (v u : List UInt16) : Prop where
  found : h.Found w base k v u
  ref : ∃ t q, h.things base = some t ∧ t.ref = .chars q ∧ p = q + k

/-- What is at the address can be read. -/
theorem CharsAt.loads {p base : ℕ} (hc : h.CharsAt w p base k v u) :
    h.mem.loads p v.length = some v := by
  obtain ⟨hf, t, q, ht, hr, rfl⟩ := hc
  have hle := hf.le
  have heq := hf.eq
  cases hf.flat with
  | flat ht' hr' _ _ _ hm =>
      obtain rfl := Option.some.inj (ht.symm.trans ht')
      obtain rfl : _ = _ := StrRef.chars.inj (hr.symm.trans hr')
      rw [hm.loads hle, ← heq]

/-- **`JSSTRING_CHARS` finds the characters of a string**, and changes no value. -/
theorem stringChars_eq (hi : h.Inv w l) (hv : h.Value w s v) :
    ∃ h' p base k u, h.stringChars w s = some (h', p) ∧ h.Shortens w h' ∧
      h'.CharsAt w p base k v u := by
  obtain ⟨d, hd⟩ := hv
  obtain ⟨t, ht⟩ := Option.isSome_iff_exists.1 hd.live
  have hdep := hd.isDependent ht
  have hd₀ := hd
  cases hd with
  | @flat _ p n t' v ht' hr hl hlt hn hm =>
      obtain rfl := Option.some.inj (ht.symm.trans ht')
      refine ⟨h, p, s, 0, v, ?_, .refl h, ⟨hd₀, by omega, by simp, by omega⟩, t, p, ht, hr, rfl⟩
      simp [stringChars, ht, hdep, StrThing.chars, hr]
  | @dep d _ b k n t' u ht' hr hmut hw hn hk hb =>
      obtain rfl := Option.some.inj (ht.symm.trans ht')
      obtain ⟨tb, htb⟩ := Option.isSome_iff_exists.1 hb.live
      have hbd := hb.isDependent htb
      cases d with
      | zero =>
          have hf := found_of_flat hb hw hk
          cases hb with
          | @flat _ p n tb' u htb' hrb hl hlt hn' hm =>
              obtain rfl := Option.some.inj (htb.symm.trans htb')
              refine ⟨h, p + k, b, k, u, ?_, .refl h, hf, tb, p, htb, hrb, rfl⟩
              simp [stringChars, ht, hdep, strdepChars, StrThing.strdepBase, hr, htb, hbd,
                StrThing.chars, hrb, hw.strdepStart]
      | succ d =>
          obtain ⟨h', base, k', u', heq, hs, hf, _⟩ :=
            minimizeDependentStrings_eq hi hd₀ strdepRecursionLimit
          have hle := hf.le
          have hlen := length_drop_take hk
          have hflat := hf.flat
          cases hflat with
          | @flat _ p n' tb' u' htb' hrb hl hlt hn' hm =>
              refine ⟨h', p + k', base, k', u', ?_, hs, hf, tb', p, htb', hrb, rfl⟩
              have hlt' : k' < tb'.length := by omega
              simp [stringChars, ht, hdep, strdepChars, StrThing.strdepBase, hr, htb, hbd,
                getDependentStringChars, heq, htb', StrThing.chars, hrb, hlt']

end StrHeap

end ProntoScript
