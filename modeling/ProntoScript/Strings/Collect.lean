/-
# The collector and the strings

`js_GC` marks what it reaches from its roots, and from the things in the table of nested
locks, and finalizes what is neither marked nor locked (`js/src/jsgc.c`).  A string keeps
its base alive only where the marking gets to the string: a lock keeps the string itself
from being finalized, but marks nothing.

`js_LockGCThingRT` means to see to the base of a locked string as well, by entering deep
things into the table with their first lock; but `GC_TYPE_IS_STRING` is false of
`GCX_MUTABLE_STRING`, the type that every dependent string has (`not_deep`), so that no
string is deep.  Locks on strings that are not mutable, and so stay flat, are safe
(`gc_survives`).
-/

import ProntoScript.Strings.Minimize

namespace ProntoScript

open HeapBlocks

variable {w : ℕ}

namespace StrHeap

variable {h h' h'' : StrHeap} {s x b d k n p : ℕ} {t t' : StrThing} {u v : List UInt16}
  {l : Option ℕ} {roots : List ℕ} {marks : ℕ → Bool}

/-! ### Marking -/

/-- `x` is `s` or one of the bases behind it. -/
inductive OnChain (h : StrHeap) : ℕ → ℕ → Prop
  | refl (s : ℕ) : OnChain h s s
  | base {s b x : ℕ} {t : StrThing} :
      h.things s = some t → t.ref = .base b → OnChain h b x → OnChain h s x

/-- The bases behind a base are bases behind the string. -/
theorem OnChain.trans {y : ℕ} (hx : h.OnChain s x) (hy : h.OnChain x y) : h.OnChain s y := by
  induction hx with
  | refl => exact hy
  | base ht hr _ ih => exact .base ht hr (ih hy)

/-- The collector reaches `x` from its roots. -/
def Marked (h : StrHeap) (roots : List ℕ) (x : ℕ) : Prop :=
  ∃ r ∈ roots ++ h.lockedThings, h.OnChain r x

/-- With a string its base is marked, unless that is `s`. -/
def ClosedBut (h : StrHeap) (s : ℕ) (marks : ℕ → Bool) : Prop :=
  ∀ y t b, marks y = true → h.things y = some t → t.ref = .base b → marks b = true ∨ b = s

/-- With a string its base is marked. -/
def Closed (h : StrHeap) (marks : ℕ → Bool) : Prop :=
  ∀ y t b, marks y = true → h.things y = some t → t.ref = .base b → marks b = true

/-- What is closed is closed but for any string. -/
theorem Closed.closedBut (hc : h.Closed marks) (s : ℕ) : h.ClosedBut s marks :=
  fun y t b hy ht hr => .inl (hc y t b hy ht hr)

/-- A string that is marked, with its base, is no exception any more. -/
theorem ClosedBut.closed (hc : h.ClosedBut s marks) (hs : marks s = true) : h.Closed marks := by
  intro y t b hy ht hr
  rcases hc y t b hy ht hr with hb | rfl
  · exact hb
  · exact hs

/-- With a string everything behind it is marked. -/
theorem Closed.onChain (hc : h.Closed marks) (hx : h.OnChain s x) (hs : marks s = true) :
    marks x = true := by
  induction hx with
  | refl => exact hs
  | base ht hr _ ih => exact ih (hc _ _ _ hs ht hr)

/-- Behind a flat string there is nothing. -/
theorem onChain_iff_of_chars (ht : h.things s = some t) (hr : t.ref = .chars p) :
    h.OnChain s x ↔ x = s := by
  constructor
  · intro hx
    cases hx with
    | refl => rfl
    | base ht' hr' =>
        obtain rfl := Option.some.inj (ht.symm.trans ht')
        rw [hr] at hr'
        cases hr'
  · rintro rfl
    exact .refl _

/-- Behind a dependent string there are its base and what is behind that. -/
theorem onChain_iff_of_base (ht : h.things s = some t) (hr : t.ref = .base b) :
    h.OnChain s x ↔ x = s ∨ h.OnChain b x := by
  constructor
  · intro hx
    cases hx with
    | refl => exact .inl rfl
    | base ht' hr' hx' =>
        obtain rfl := Option.some.inj (ht.symm.trans ht')
        obtain rfl : _ = _ := StrRef.base.inj (hr.symm.trans hr')
        exact .inr hx'
  · rintro (rfl | hx)
    · exact .refl _
    · exact .base ht hr hx

/-- With `s` marked, the marks are closed but for its base. -/
theorem ClosedBut.mark (hc : h.ClosedBut s marks) (ht : h.things s = some t)
    (hb : ∀ b', t.ref = .base b' → b' = b) :
    h.ClosedBut b fun x => if x = s then true else marks x := by
  intro y t' b' hy ht' hr'
  by_cases hys : y = s
  · subst hys
    obtain rfl := Option.some.inj (ht.symm.trans ht')
    exact .inr (hb b' hr')
  · simp only [if_neg hys] at hy
    rcases hc y t' b' hy ht' hr' with hm | rfl
    · exact .inl (by simp [hm])
    · exact .inl (by simp)

/-- Marking from a string marks its chain of bases. -/
theorem markString_eq (hd : h.Denotes w d s v) {fuel : ℕ} (hf : d < fuel)
    (hc : h.ClosedBut s marks) :
    ∃ marks', h.markString w fuel marks s = some marks' ∧ h.Closed marks' ∧
      ∀ x, marks' x = true ↔ marks x = true ∨ h.OnChain s x := by
  induction hd generalizing fuel marks with
  | @flat s p n t v ht hr hl hlt hn hm =>
      obtain ⟨fuel, rfl⟩ : ∃ f, fuel = f + 1 := ⟨fuel - 1, by omega⟩
      have hflat : t.isDependent w = false := not_isDependent (hl ▸ hlt)
      have hchain : ∀ x, h.OnChain s x ↔ x = s := fun x => onChain_iff_of_chars ht hr
      by_cases hs : marks s = true
      · refine ⟨marks, by simp [markString, ht, hs], hc.closed hs, fun x => ?_⟩
        rw [hchain]
        exact ⟨.inl, fun hx => hx.elim id fun e => e ▸ hs⟩
      · have hcl := (hc.mark (b := s) ht fun b' hr' => by rw [hr] at hr'; cases hr').closed
          (by simp)
        refine ⟨_, by simp [markString, ht, hs, hflat], hcl, fun x => ?_⟩
        rw [hchain]
        by_cases hx : x = s <;> simp [hx]
  | @dep d s b k n t u ht hr hmut hw hn hk hb ih =>
      obtain ⟨fuel, rfl⟩ : ∃ f, fuel = f + 1 := ⟨fuel - 1, by omega⟩
      by_cases hs : marks s = true
      · have hcl := hc.closed hs
        refine ⟨marks, by simp [markString, ht, hs], hcl, fun x => ⟨.inl, ?_⟩⟩
        rintro (hx | hx)
        · exact hx
        · exact hcl.onChain hx hs
      · obtain ⟨marks', heq, hcl, hiff⟩ := ih (show d < fuel by omega)
          (hc.mark ht fun b' hr' => StrRef.base.inj (hr'.symm.trans hr))
        refine ⟨marks', ?_, hcl, fun x => ?_⟩
        · simpa [markString, ht, hs, hmut, hw.isDependent, StrThing.strdepBase, hr] using heq
        · rw [hiff, onChain_iff_of_base ht hr]
          by_cases hx : x = s <;> simp [hx]

/-- **The marks are what can be reached.** -/
theorem markPhase_eq (hi : h.Inv w l) (hroots : ∀ r ∈ roots, (h.things r).isSome) :
    ∃ marks, h.markPhase w roots = some marks ∧ ∀ x, marks x = true ↔ h.Marked roots x := by
  have hall : ∀ r ∈ roots ++ h.lockedThings, (h.things r).isSome := by
    intro r hr
    rcases List.mem_append.1 hr with hr | hr
    · exact hroots r hr
    · obtain ⟨t, ht, _⟩ := hi.locks r (by simpa using (List.mem_filter.1 hr).2)
      simp [ht]
  have hfold : ∀ (rs : List ℕ) (marks : ℕ → Bool), (∀ r ∈ rs, (h.things r).isSome) →
      h.Closed marks → ∃ marks', rs.foldlM (h.markString w (h.top + 1)) marks = some marks' ∧
        ∀ x, marks' x = true ↔ marks x = true ∨ ∃ r ∈ rs, h.OnChain r x := by
    intro rs
    induction rs with
    | nil => exact fun marks _ _ => ⟨marks, rfl, by simp⟩
    | cons r rs ih =>
        intro marks hrs hc
        obtain ⟨v, d, hd⟩ := hi.value r (hrs r (by simp))
        have hlt := hd.lt_top hi.top
        obtain ⟨marks₁, heq, hc₁, h₁⟩ :=
          markString_eq hd (show d < h.top + 1 by omega) (hc.closedBut r)
        obtain ⟨marks₂, heq₂, h₂⟩ := ih marks₁ (fun r' hr' => hrs r' (by simp [hr'])) hc₁
        refine ⟨marks₂, by simp [List.foldlM_cons, heq, heq₂], fun x => ?_⟩
        rw [h₂, h₁]
        simp [or_assoc]
  obtain ⟨marks, heq, hm⟩ := hfold _ (fun _ => false) hall (by simp [Closed])
  exact ⟨marks, heq, fun x => by simpa [Marked] using hm x⟩

/-- A root is marked. -/
theorem Marked.root {r : ℕ} (hr : r ∈ roots) : h.Marked roots r :=
  ⟨r, List.mem_append_left _ hr, .refl r⟩

/-- The base of a marked string is marked. -/
theorem Marked.base (hm : h.Marked roots s) (ht : h.things s = some t) (hr : t.ref = .base b) :
    h.Marked roots b := by
  obtain ⟨r, hmem, hx⟩ := hm
  exact ⟨r, hmem, hx.trans (.base ht hr (.refl b))⟩

/-! ### Sweeping -/

/-- The strings own their buffers. -/
structure Owns (w : ℕ) (h : StrHeap) : Prop where
  mem : h.mem.WF
  kind : ∀ s t, h.things s = some t → (t.isDependent w = true ∧ ∃ b, t.ref = .base b) ∨
    (t.isDependent w = false ∧ ∃ p n, t.ref = .chars p ∧ h.mem.block p = some n)
  owner : ∀ s s' t t' p, h.things s = some t → h.things s' = some t' → t.ref = .chars p →
    t'.ref = .chars p → s = s'

/-- In every heap that keeps the invariant the strings own their buffers. -/
theorem Inv.owns (hi : h.Inv w l) : h.Owns w where
  mem := hi.mem
  owner := hi.owner
  kind s t ht := by
    rcases hi.cases ht with ⟨p, n, v, hr, _, _, _, hd, hm, _⟩ |
      ⟨d, b, k, n, u, hr, _, _, _, _, hd, _⟩
    · exact .inr ⟨hd, p, n, hr, hm.block⟩
    · exact .inl ⟨hd, b, hr⟩

/-- `h'` is `h` without the strings of `G` and their buffers. -/
structure Swept (G : ℕ → Prop) (h h' : StrHeap) : Prop where
  gone : ∀ x, G x → h'.things x = none
  kept : ∀ x, ¬G x → h'.things x = h.things x
  top : h'.top = h.top
  emptyString : h'.emptyString = h.emptyString
  locks : h'.locks = h.locks
  wf : h'.mem.WF
  block : ∀ p n, h'.mem.block p = some n ↔ h.mem.block p = some n ∧
    ∀ s t, G s → h.things s = some t → t.ref ≠ .chars p
  holds : ∀ p n v, (∀ s t, G s → h.things s = some t → t.ref ≠ .chars p) →
    h.mem.Holds p n v → h'.mem.Holds p n v

/-- Nothing is swept where no string goes. -/
theorem Swept.refl (hw : h.mem.WF) : h.Swept (fun _ => False) h where
  gone x hx := hx.elim
  kept _ _ := rfl
  top := rfl
  emptyString := rfl
  locks := rfl
  wf := hw
  block := by simp
  holds _ _ _ _ hm := hm

/-- Which strings go is a matter of which there are, not of how they are named. -/
theorem Swept.congr {g g' : ℕ → Prop} (hs : h.Swept g h') (hg : ∀ x, g x ↔ g' x) :
    h.Swept g' h' := by
  obtain rfl : g = g' := funext fun x => propext (hg x)
  exact hs

/-- Two sweeps take what both take. -/
theorem Swept.trans {g g' : ℕ → Prop} (h₁ : h.Swept g h') (h₂ : h'.Swept g' h'') :
    h.Swept (fun x => g x ∨ g' x) h'' where
  gone x hx := by
    by_cases hg' : g' x
    · exact h₂.gone x hg'
    · rw [h₂.kept x hg', h₁.gone x (hx.resolve_right hg')]
  kept x hx := by
    rw [h₂.kept x fun e => hx (.inr e), h₁.kept x fun e => hx (.inl e)]
  top := h₂.top.trans h₁.top
  emptyString := h₂.emptyString.trans h₁.emptyString
  locks := h₂.locks.trans h₁.locks
  wf := h₂.wf
  block p n := by
    rw [h₂.block, h₁.block, and_assoc]
    refine and_congr_right fun _ => ⟨fun ⟨ha, hb⟩ s t hs ht => ?_, fun ha => ⟨?_, ?_⟩⟩
    · by_cases hg : g s
      · exact ha s t hg ht
      · exact hb s t (hs.resolve_left hg) ((h₁.kept s hg).trans ht)
    · exact fun s t hs => ha s t (.inl hs)
    · intro s t hs ht
      by_cases hg : g s
      · rw [h₁.gone s hg] at ht
        cases ht
      · exact ha s t (.inr hs) ((h₁.kept s hg).symm.trans ht)
  holds p n v hne hm := by
    refine h₂.holds p n v (fun s t hs ht => ?_)
      (h₁.holds p n v (fun s t hs => hne s t (.inl hs)) hm)
    by_cases hg : g s
    · rw [h₁.gone s hg] at ht
      cases ht
    · exact hne s t (.inr hs) ((h₁.kept s hg).symm.trans ht)

/-- The strings that are left own their buffers. -/
theorem Swept.owns {g : ℕ → Prop} (hs : h.Swept g h') (ho : h.Owns w) : h'.Owns w where
  mem := hs.wf
  owner s s' t t' p ht ht' hr hr' := by
    have hg : ¬g s := fun hg => by rw [hs.gone s hg] at ht; cases ht
    have hg' : ¬g s' := fun hg' => by rw [hs.gone s' hg'] at ht'; cases ht'
    exact ho.owner s s' t t' p (hs.kept s hg ▸ ht) (hs.kept s' hg' ▸ ht') hr hr'
  kind s t ht := by
    have hg : ¬g s := fun hg => by rw [hs.gone s hg] at ht; cases ht
    have ht₀ := hs.kept s hg ▸ ht
    rcases ho.kind s t ht₀ with hd | ⟨hf, p, n, hr, hb⟩
    · exact .inl hd
    · refine .inr ⟨hf, p, n, hr, (hs.block p n).2 ⟨hb, fun s' t' hg' ht' hr' => ?_⟩⟩
      exact hg (ho.owner s s' t t' p ht₀ ht' hr hr' ▸ hg')

/-- The sweep frees a string that is neither marked nor locked. -/
def Unkept (marks : ℕ → Bool) (h : StrHeap) (x : ℕ) : Prop :=
  ∃ t, h.things x = some t ∧ marks x = false ∧ t.isLocked = false

/-- The thing of an unkept string goes, with the buffer that it has. -/
theorem swept_thing (ht : h.things s = some t) (hun : Unkept marks h s) {m : Mem UInt16}
    (hw : m.WF) (hblock : ∀ p n, m.block p = some n ↔ h.mem.block p = some n ∧ t.ref ≠ .chars p)
    (hholds : ∀ p n v, t.ref ≠ .chars p → h.mem.Holds p n v → m.Holds p n v) :
    h.Swept (fun x => x = s ∧ Unkept marks h x)
      ⟨m, fun x => if x = s then none else h.things x, h.top, h.emptyString, h.locks⟩ := by
  have hone : ∀ p, (∀ x t', x = s ∧ Unkept marks h x → h.things x = some t' → t'.ref ≠ .chars p) ↔
      t.ref ≠ .chars p := by
    intro p
    constructor
    · exact fun hne => hne s t ⟨rfl, hun⟩ ht
    · rintro hne _ t' ⟨rfl, _⟩ ht'
      obtain rfl := Option.some.inj (ht.symm.trans ht')
      exact hne
  refine ⟨?_, fun x hx => ?_, rfl, rfl, rfl, hw, fun p n => ?_, fun p n v hne => ?_⟩
  · rintro x ⟨rfl, _⟩
    simp
  · have hne : x ≠ s := fun e => hx ⟨e, e ▸ hun⟩
    simp [hne]
  · rw [hone]
    exact hblock p n
  · exact hholds p n v ((hone p).1 hne)

/-- The sweep of one thing finalizes it if it is neither marked nor locked; its buffer is
there to be freed. -/
theorem sweepThing_eq (ho : h.Owns w) (marks : ℕ → Bool) (s : ℕ) :
    ∃ h', sweepThing w marks h s = some h' ∧ h.Swept (fun x => x = s ∧ Unkept marks h x) h' := by
  cases ht : h.things s with
  | none =>
      refine ⟨h, by simp [sweepThing, ht], (Swept.refl ho.mem).congr fun x => ?_⟩
      simp only [false_iff]
      rintro ⟨rfl, t, ht', _⟩
      rw [ht] at ht'
      cases ht'
  | some t =>
      by_cases hk : (marks s || t.isLocked) = true
      · refine ⟨h, by simp [sweepThing, ht, hk], (Swept.refl ho.mem).congr fun x => ?_⟩
        simp only [false_iff]
        rintro ⟨rfl, t', ht', hm, hl⟩
        obtain rfl := Option.some.inj (ht.symm.trans ht')
        simp [hm, hl] at hk
      · have hun : Unkept marks h s := ⟨t, ht, by simpa using hk⟩
        rcases ho.kind s t ht with ⟨hd, b, hr⟩ | ⟨hd, p, n, hr, hb⟩
        · -- a dependent string has no buffer
          have hne : ∀ p, t.ref ≠ .chars p := fun p e => by rw [hr] at e; cases e
          exact ⟨_, by simp [sweepThing, ht, hk, finalizeString, hd], swept_thing ht hun ho.mem
            (fun p n => ⟨fun hb => ⟨hb, hne p⟩, And.left⟩) fun _ _ _ _ hm => hm⟩
        · have hp := (ho.mem.pos p n hb).1
          have hp₀ : p ≠ 0 := by omega
          have hq : ∀ q, t.ref ≠ .chars q ↔ q ≠ p := by
            intro q
            rw [hr, ne_eq, StrRef.chars.injEq, eq_comm]
          refine ⟨_, by simp [sweepThing, ht, hk, finalizeString, hd, StrThing.chars, hr, hp₀,
            StrHeap.free, Mem.free_eq hb], swept_thing ht hun (ho.mem.drop hb)
              (fun q m => ?_) fun q m v hne hm => hm.drop ho.mem hb ((hq q).1 hne)⟩
          rw [hq]
          simp only [Mem.drop]
          by_cases hqp : q = p <;> simp [hqp]

/-- The sweep of a list of things finalizes those of them that are neither marked nor
locked. -/
theorem sweep_eq (marks : ℕ → Bool) (ss : List ℕ) (ho : h.Owns w) :
    ∃ h', ss.foldlM (sweepThing w marks) h = some h' ∧
      h.Swept (fun x => x ∈ ss ∧ Unkept marks h x) h' := by
  induction ss generalizing h with
  | nil => exact ⟨h, rfl, (Swept.refl ho.mem).congr (by simp)⟩
  | cons s ss ih =>
      obtain ⟨h₁, heq₁, hs₁⟩ := sweepThing_eq ho marks s
      obtain ⟨h₂, heq₂, hs₂⟩ := ih (hs₁.owns ho)
      refine ⟨h₂, by simp [List.foldlM_cons, heq₁, heq₂], (hs₁.trans hs₂).congr fun x => ?_⟩
      -- a string that is swept later on was there, and no other, at the beginning
      have hsame : ¬(x = s ∧ Unkept marks h x) → (Unkept marks h₁ x ↔ Unkept marks h x) :=
        fun hx => by simp only [Unkept, hs₁.kept x hx]
      by_cases hx : x = s ∧ Unkept marks h x
      · simp [hx.1, hx.1 ▸ hx.2]
      · simp only [hx, false_or, hsame hx, List.mem_cons]
        constructor
        · rintro ⟨hm, hu⟩
          exact ⟨.inr hm, hu⟩
        · rintro ⟨hm, hu⟩
          exact ⟨hm.resolve_left fun e => hx ⟨e, hu⟩, hu⟩

/-- A collection frees `x`. -/
def Freed (h : StrHeap) (roots : List ℕ) (x : ℕ) : Prop :=
  ∃ t, h.things x = some t ∧ ¬h.Marked roots x ∧ t.isLocked = false

/-- **A collection frees what it neither reaches nor finds locked**, and nothing else. -/
theorem gc_eq (hi : h.Inv w l) (hroots : ∀ r ∈ roots, (h.things r).isSome) :
    ∃ h', h.gc w roots = some h' ∧ h.Swept (h.Freed roots) h' := by
  obtain ⟨marks, heq, hm⟩ := markPhase_eq hi hroots
  obtain ⟨h', heq', hs⟩ := sweep_eq marks (List.range h.top) hi.owns
  refine ⟨h', by simp [gc, heq, heq'], hs.congr fun x => ?_⟩
  have hmx : marks x = false ↔ ¬h.Marked roots x := by rw [← hm x]; simp
  simp only [Unkept, Freed, hmx, List.mem_range]
  refine ⟨And.right, fun hx => ⟨?_, hx⟩⟩
  obtain ⟨t, ht, _⟩ := hx
  exact hi.top x (by simp [ht])

/-! ### What a collection leaves -/

/-- A string keeps its value if it and the bases behind it stay. -/
theorem Denotes.swept {G : ℕ → Prop} (ho : h.Owns w) (hs : h.Swept G h')
    (hbase : ∀ x t b, ¬G x → h.things x = some t → t.ref = .base b → ¬G b)
    (hd : h.Denotes w d s v) (hg : ¬G s) : h'.Denotes w d s v := by
  induction hd with
  | @flat s p n t v ht hr hl hlt hn hm =>
      refine .flat ((hs.kept s hg).trans ht) hr hl hlt hn (hs.holds p n v ?_ hm)
      intro s' t' hg' ht' hr'
      exact hg (ho.owner s s' t t' p ht ht' hr hr' ▸ hg')
  | dep ht hr hmut hw hn hk _ ih =>
      exact .dep ((hs.kept _ hg).trans ht) hr hmut hw hn hk (ih (hbase _ _ _ hg ht hr))

/-- Where no string is kept without its base, the heap is in order. -/
theorem Swept.inv {G : ℕ → Prop} (hs : h.Swept G h') (hi : h.Inv w l)
    (hbase : ∀ x t b, ¬G x → h.things x = some t → t.ref = .base b → ¬G b)
    (hlock : ∀ x t, h.things x = some t → t.isLocked = true → ¬G x) : h'.Inv w l where
  mem := hs.wf
  below p n hb := hi.below p n ((hs.block p n).1 hb).1
  top x hx := by
    rw [hs.top]
    by_cases hg : G x
    · simp [hs.gone x hg] at hx
    · exact hi.top x (hs.kept x hg ▸ hx)
  value x hx := by
    by_cases hg : G x
    · simp [hs.gone x hg] at hx
    · obtain ⟨v, d, hd⟩ := hi.value x (hs.kept x hg ▸ hx)
      exact ⟨v, d, hd.swept hi.owns hs hbase hg⟩
  owner := (hs.owns hi.owns).owner
  owned p n hb := by
    obtain ⟨hb, hne⟩ := (hs.block p n).1 hb
    rcases hi.owned p n hb with hl | ⟨s, t, ht, hr⟩
    · exact .inl hl
    · have hg : ¬G s := fun hg => hne s t hg ht hr
      exact .inr ⟨s, t, (hs.kept s hg).trans ht, hr⟩
  loose p s t hl ht hr := by
    by_cases hg : G s
    · rw [hs.gone s hg] at ht
      cases ht
    · exact hi.loose p s t hl (hs.kept s hg ▸ ht) hr
  locks s hs' := by
    obtain ⟨t, ht, hl⟩ := hi.locks s (hs.locks ▸ hs')
    exact ⟨t, (hs.kept s (hlock s t ht hl)).trans ht, hl⟩
  empty := by
    obtain ⟨⟨d, hv⟩, t, ht, hl, hm⟩ := hi.empty
    have hg := hlock _ t ht hl
    rw [hs.emptyString]
    exact ⟨⟨d, hv.swept hi.owns hs hbase hg⟩, t, (hs.kept _ hg).trans ht, hl, hm⟩

/-- Locks are only on strings that stay flat. -/
def LocksFlat (h : StrHeap) : Prop :=
  ∀ s t, h.things s = some t → t.isLocked = true → t.isMutable = false

/-- A string that is not mutable is flat. -/
theorem Inv.flat_of_not_mutable (hi : h.Inv w l) (ht : h.things s = some t)
    (hm : t.isMutable = false) : ∃ p, t.ref = .chars p := by
  rcases hi.cases ht with ⟨p, n, v, hr, _⟩ | ⟨d, b, k, n, u, _, hmut, _⟩
  · exact ⟨p, hr⟩
  · rw [hm] at hmut
    cases hmut

/-- A base is freed with a string only if a lock holds the string and not the base. -/
theorem not_freed_base (hx : ¬h.Freed roots x) (ht : h.things x = some t) (hr : t.ref = .base b)
    (hb : t.isLocked = true → ¬h.Freed roots b) : ¬h.Freed roots b := by
  by_cases hl : t.isLocked = true
  · exact hb hl
  · rintro ⟨_, _, hm, _⟩
    exact hx ⟨t, ht, fun hmx => hm (hmx.base ht hr), by simpa using hl⟩

/-- No string is deep to `js_LockGCThingRT`: what depends on another is mutable. -/
theorem Inv.not_deep (hi : h.Inv w l) (ht : h.things s = some t) :
    (!t.isMutable && t.isDependent w) = false := by
  rcases hi.cases ht with ⟨_, _, _, _, _, _, _, hd, _⟩ | ⟨_, _, _, _, _, _, hm, _⟩
  · simp [hd]
  · simp [hm]

/-! ### New strings -/

/-- What a collection, where there is one, leaves of the strings: `roots` are those it is
given. -/
structure Survives (w : ℕ) (roots : Option (List ℕ)) (h h' : StrHeap) : Prop where
  thing : ∀ x t, h'.things x = some t → h.things x = some t
  value : ∀ x v, (h'.things x).isSome → h.Value w x v → h'.Value w x v
  root : ∀ x, (h.things x).isSome → (∀ rs, roots = some rs → x ∈ rs) → (h'.things x).isSome
  emptyString : h'.emptyString = h.emptyString
  holds : ∀ p n v, (∀ s t, h.things s = some t → t.ref = .chars p → (h'.things s).isSome) →
    h.mem.Holds p n v → h'.mem.Holds p n v

/-- Where there is no collection everything survives. -/
theorem Survives.refl (h : StrHeap) (roots : Option (List ℕ)) : h.Survives w roots h :=
  ⟨fun _ _ ht => ht, fun _ _ _ hv => hv, fun _ hx _ => hx, rfl, fun _ _ _ _ hm => hm⟩

/-- **`js_GC` gets through**, keeps the invariant, and what it keeps has the values it
had, where locks are on strings that stay flat. Source: lines 1530-1989 of
`js/src/jsgc.c`. -/
theorem gc_survives (hi : h.Inv w l) (hf : h.LocksFlat)
    (hroots : ∀ r ∈ roots, (h.things r).isSome) :
    ∃ h', h.gc w roots = some h' ∧ h'.Inv w l ∧ h'.LocksFlat ∧ h.Survives w (some roots) h' := by
  obtain ⟨h', heq, hs⟩ := gc_eq hi hroots
  have hbase : ∀ x t b, ¬h.Freed roots x → h.things x = some t → t.ref = .base b →
      ¬h.Freed roots b := fun x t b hx ht hr => not_freed_base hx ht hr fun hl => by
    obtain ⟨p, hp⟩ := hi.flat_of_not_mutable ht (hf x t ht hl)
    rw [hr] at hp
    cases hp
  have hlock : ∀ x t, h.things x = some t → t.isLocked = true → ¬h.Freed roots x := by
    rintro x t ht hl ⟨t', ht', _, hl'⟩
    obtain rfl := Option.some.inj (ht.symm.trans ht')
    rw [hl] at hl'
    cases hl'
  have hthing : ∀ x t, h'.things x = some t → h.things x = some t := fun x t ht => by
    by_cases hg : h.Freed roots x
    · rw [hs.gone x hg] at ht
      cases ht
    · exact hs.kept x hg ▸ ht
  refine ⟨h', heq, hs.inv hi hbase hlock, fun s t ht => hf s t (hthing s t ht), hthing, ?_, ?_,
    hs.emptyString, fun p n v hkept hm => hs.holds p n v (fun s t hg ht hr => ?_) hm⟩
  · rintro x v hx ⟨d, hd⟩
    refine ⟨d, hd.swept hi.owns hs hbase fun hg => ?_⟩
    rw [hs.gone x hg] at hx
    cases hx
  · intro x hx hr
    rw [hs.kept x, hx]
    rintro ⟨_, _, hm, _⟩
    exact hm (.root (hr roots rfl))
  · have := hkept s t ht hr
    rw [hs.gone s hg] at this
    cases this

/-- **`js_NewGCThing`** collects, where it does, and finds a thing that is no string's, or
none. -/
theorem newGCThing_eq (hi : h.Inv w l) (hf : h.LocksFlat) (o : StrAnswers)
    (hroots : ∀ rs, o.gc = some rs → ∀ r ∈ rs, (h.things r).isSome) (t : StrThing) :
    ∃ h₁, h₁.Inv w l ∧ h₁.LocksFlat ∧ h.Survives w o.gc h₁ ∧
      (h.newGCThing w o t = some (h₁, none) ∨
        ∃ s, h₁.things s = none ∧ h.newGCThing w o t = some (h₁.add s t, some s)) := by
  obtain ⟨h₁, hgc, hi₁, hf₁, hs⟩ : ∃ h₁, h.lastDitchGC w o.gc = some h₁ ∧ h₁.Inv w l ∧
      h₁.LocksFlat ∧ h.Survives w o.gc h₁ := by
    cases hg : o.gc with
    | none => exact ⟨h, rfl, hi, hf, .refl h none⟩
    | some rs =>
        obtain ⟨h', heq, hi', hf', hs'⟩ := gc_survives hi hf (hroots rs hg)
        exact ⟨h', heq, hi', hf', hs'⟩
  refine ⟨h₁, hi₁, hf₁, hs, ?_⟩
  simp only [newGCThing, hgc, Option.bind_eq_bind, Option.bind_some]
  cases hx : o.thing.filter fun s => (h₁.things s).isNone with
  | none => exact .inl rfl
  | some s =>
      have hn := (Option.filter_eq_some_iff.1 hx).2
      exact .inr ⟨s, by simpa using hn, rfl⟩

end StrHeap

end ProntoScript
