/-
# What marking by recursion does

`Edge` is what a thing leads to: an object to the vector of its slots, to what its class
marks and to what is in its slots, a dependent string to its base.  A call of the marker
may find a heap in which the slots of marked objects hold anything, as `DeutschSchorrWaite`
has them while it calls `MARK_GC_THING`; all that it relies on is the rest (`Agrees`), and
it leaves them as they are (`Traced`).

Each part of `MARK_GC_THING` is followed here with a marker `gcMark` that does its work as
long as fewer than `n` things are unmarked (`Marker`).
-/

import ProntoScript.Collector.MarkHeap

namespace ProntoScript

open Marking

namespace GCObject

/-- How many slots the marker of an object says there are to look at. -/
def stop (o : GCObject) : ℕ :=
  match o.hook with
  | some (_, n) => n
  | none => min o.freeslot o.nslots

/-- What the marker of an object marks. -/
def kids (o : GCObject) : List ℤ :=
  match o.hook with
  | some (kids, _) => kids
  | none => []

end GCObject

/-- `y` is what a slot holds. -/
def SlotThing (vs : List ℤ) (y : ℤ) : Prop :=
  ∃ v ∈ vs, jsvalIsGCThing v = true ∧ jsvalToGCThing v = y ∧ y ≠ 0

namespace MarkHeap

/-- What a thing leads to. -/
inductive Edge (h : MarkHeap) : ℤ → ℤ → Prop
  | vector {x : ℤ} {o : GCObject} {vs : List ℤ} : h.kind x = some (.object o) →
      h.slots x = some vs → vs.length + 1 ≤ 20 → o.vector ≠ 0 → Edge h x o.vector
  | kid {x y : ℤ} {o : GCObject} {vs : List ℤ} : h.kind x = some (.object o) →
      h.slots x = some vs → y ∈ o.kids → y ≠ 0 → Edge h x y
  | slot {x y : ℤ} {o : GCObject} {vs : List ℤ} : h.kind x = some (.object o) →
      h.slots x = some vs → SlotThing vs y → Edge h x y
  | base {x y : ℤ} : h.kind x = some (.string (some y)) → y ≠ 0 → Edge h x y
  | other {x y : ℤ} {kids : List ℤ} : h.kind x = some (.other kids) → y ∈ kids → y ≠ 0 →
      Edge h x y

/-- What the collector relies on. -/
structure WF (h : MarkHeap) : Prop where
  known : ∀ x ∈ h.things, (h.kind x).isSome
  live : ∀ x y, h.Edge x y → y ∈ h.things
  /-- Objects are aligned, and lie above the small words and in the lower half. -/
  aligned : ∀ x o, h.kind x = some (.object o) → x % 8 = 0 ∧ 16 < x
  /-- What is tagged as an object is one, and no newborn. -/
  object : ∀ x o vs v, h.kind x = some (.object o) → h.slots x = some vs → v ∈ vs →
    jsvalIsObject v = true → v ≠ 0 → ∃ o' vs', h.kind v = some (.object o') ∧ h.slots v = some vs'
  /-- What is tagged as a boolean is one. -/
  boolean : ∀ x o vs v, h.kind x = some (.object o) → h.slots x = some vs → v ∈ vs →
    jsvalIsBoolean v = true → v ≤ jsvalTrue
  /-- The slots that the marker of the object does not mention hold nothing. -/
  stop : ∀ x o vs, h.kind x = some (.object o) → h.slots x = some vs →
    o.stop ≤ vs.length ∧ ¬∃ y, SlotThing (vs.drop o.stop) y

/-- `h` has the things of `h₀`, and where they are unmarked their slots. -/
structure Agrees (h₀ h : MarkHeap) : Prop where
  things : h.things = h₀.things
  kind : h.kind = h₀.kind
  slots : ∀ x, h.marks x = false → h.slots x = h₀.slots x

/-- From `h` to `h'`, what `src` has was marked, and what it leads to in `h₀`. -/
structure Traced (h₀ : MarkHeap) (src : ℤ → Prop) (h h' : MarkHeap) : Prop where
  things : h'.things = h.things
  kind : h'.kind = h.kind
  slots : h'.slots = h.slots
  index : ∀ y, h.marks y = true → h'.dswIndex y = h.dswIndex y
  visits : Visits h₀.Edge src Nothing (h.marks · = true) (h'.marks · = true)

/-- A marker that does its work while fewer than `n` things are unmarked. -/
def Marker (h₀ : MarkHeap) (n : ℕ) (gcMark : MarkHeap → ℤ → Option MarkHeap) : Prop :=
  ∀ h x, h₀.Agrees h → x ∈ h₀.things → unmarkedCount h₀.things h.marks < n →
    ∃ h', gcMark h x = some h' ∧ h₀.Traced (· = x) h h'

variable {h₀ h h' h'' : MarkHeap} {src src' : ℤ → Prop} {x y v : ℤ} {n : ℕ} {vs : List ℤ}
  {o : GCObject} {gcMark : MarkHeap → ℤ → Option MarkHeap}

/-- A heap agrees with itself. -/
theorem Agrees.refl (h : MarkHeap) : h.Agrees h := ⟨rfl, rfl, fun _ _ => rfl⟩

/-- Where the sources are marked nothing need be done. -/
theorem Traced.refl (hsrc : ∀ x, src x → h.marks x = true) : h₀.Traced src h h :=
  ⟨rfl, rfl, rfl, fun _ _ => rfl, .nil _ hsrc⟩

/-- No mark is taken back. -/
theorem Traced.mono (ht : h₀.Traced src h h') (hx : h.marks x = true) : h'.marks x = true :=
  ht.visits.mono x hx

/-- Tracing leaves the slots. -/
theorem Traced.agrees (ht : h₀.Traced src h h') (ha : h₀.Agrees h) : h₀.Agrees h' where
  things := ht.things.trans ha.things
  kind := ht.kind.trans ha.kind
  slots x hx := by
    rw [ht.slots]
    refine ha.slots x ?_
    cases hm : h.marks x with
    | false => rfl
    | true => rw [ht.mono hm] at hx; cases hx

/-- Tracing leaves no more to mark than there was. -/
theorem Traced.count_le (ht : h₀.Traced src h h') (xs : List ℤ) :
    unmarkedCount xs h'.marks ≤ unmarkedCount xs h.marks :=
  unmarkedCount_le fun _ hx => ht.mono hx

/-- Tracing from some things and then from others is tracing from both. -/
theorem Traced.append (h₁ : h₀.Traced src h h') (h₂ : h₀.Traced src' h' h'') :
    h₀.Traced (fun x => src x ∨ src' x) h h'' where
  things := h₂.things.trans h₁.things
  kind := h₂.kind.trans h₁.kind
  slots := h₂.slots.trans h₁.slots
  index y hy := (h₂.index y (h₁.mono hy)).trans (h₁.index y hy)
  visits := h₁.visits.append h₂.visits

/-- The things to start from may be told otherwise. -/
theorem Traced.congr (ht : h₀.Traced src h h') (h₁ : ∀ x, src' x → src x ∨ h.marks x = true)
    (h₂ : ∀ x, src x → src' x) : h₀.Traced src' h h' where
  things := ht.things
  kind := ht.kind
  slots := ht.slots
  index := ht.index
  visits :=
    { mono := ht.visits.mono
      found := fun x hx => (h₁ x hx).elim (ht.visits.found x) (ht.visits.mono x)
      reach := fun x hx => (ht.visits.reach x hx).imp_right (reach_mono fun x hx => .root (h₂ x hx))
      closed := ht.visits.closed }

/-! ### Things one after the other -/

/-- What is not null and has no mark. -/
theorem isUnmarked_iff : h.isUnmarked x = true ↔ x ≠ 0 ∧ h.marks x = false := by
  simp [isUnmarked]

/-- A slot has nothing to mark. -/
theorem unmarkedThing_eq_none :
    h.unmarkedThing v = none ↔ (jsvalIsGCThing v = true → jsvalToGCThing v ≠ 0 →
      h.marks (jsvalToGCThing v) = true) := by
  unfold unmarkedThing
  cases hv : jsvalIsGCThing v with
  | false => simp
  | true =>
      cases hm : h.marks (jsvalToGCThing v) with
      | false => simp [isUnmarked, hm]
      | true => simp [isUnmarked, hm]

/-- A slot has a thing to mark. -/
theorem unmarkedThing_eq_some :
    h.unmarkedThing v = some x ↔ jsvalIsGCThing v = true ∧ jsvalToGCThing v = x ∧ x ≠ 0 ∧
      h.marks x = false := by
  unfold unmarkedThing
  constructor
  · intro hx
    split at hx
    · next hc =>
        obtain rfl := Option.some.inj hx
        rw [Bool.and_eq_true, isUnmarked_iff] at hc
        exact ⟨hc.1, rfl, hc.2⟩
    · cases hx
  · rintro ⟨hv, rfl, hx⟩
    rw [if_pos]
    rw [Bool.and_eq_true, isUnmarked_iff]
    exact ⟨hv, hx⟩

/-- `js_MarkGCThing`. -/
theorem markIfUnmarked_eq (hm : h₀.Marker n gcMark) (ha : h₀.Agrees h)
    (hx : x ≠ 0 → x ∈ h₀.things) (hn : unmarkedCount h₀.things h.marks < n) :
    ∃ h', h.markIfUnmarked gcMark x = some h' ∧ h₀.Traced (fun y => y = x ∧ y ≠ 0) h h' := by
  unfold markIfUnmarked
  by_cases hu : h.isUnmarked x = true
  · rw [if_pos hu]
    rw [isUnmarked_iff] at hu
    obtain ⟨h', heq, ht⟩ := hm h x ha (hx hu.1) hn
    exact ⟨h', heq, ht.congr (fun y hy => .inl hy.1) fun y hy => ⟨hy, hy ▸ hu.1⟩⟩
  · rw [if_neg hu]
    refine ⟨h, rfl, .refl fun y hy => ?_⟩
    rw [isUnmarked_iff, not_and, Bool.not_eq_false] at hu
    rw [hy.1]
    exact hu (hy.1 ▸ hy.2)

/-- Things that are marked one after the other are traced from. -/
theorem foldlM_markIfUnmarked_eq (hm : h₀.Marker n gcMark) (xs : List ℤ) (ha : h₀.Agrees h)
    (hxs : ∀ x ∈ xs, x ≠ 0 → x ∈ h₀.things) (hn : unmarkedCount h₀.things h.marks < n) :
    ∃ h', xs.foldlM (markIfUnmarked gcMark) h = some h' ∧
      h₀.Traced (fun y => y ∈ xs ∧ y ≠ 0) h h' := by
  induction xs generalizing h with
  | nil => exact ⟨h, rfl, .refl fun _ hx => by simp at hx⟩
  | cons x xs ih =>
      obtain ⟨h₁, heq₁, ht₁⟩ := markIfUnmarked_eq hm ha (hxs x (by simp)) hn
      obtain ⟨h₂, heq₂, ht₂⟩ := ih (ht₁.agrees ha) (fun y hy => hxs y (by simp [hy]))
        (Nat.lt_of_le_of_lt (ht₁.count_le _) hn)
      refine ⟨h₂, by simp [List.foldlM_cons, heq₁, heq₂], (ht₁.append ht₂).congr ?_ ?_⟩
      · rintro y ⟨hy, hne⟩
        rcases List.mem_cons.1 hy with rfl | hy
        · exact .inl (.inl ⟨rfl, hne⟩)
        · exact .inl (.inr ⟨hy, hne⟩)
      · rintro y (⟨rfl, hne⟩ | ⟨hy, hne⟩)
        · exact ⟨by simp, hne⟩
        · exact ⟨by simp [hy], hne⟩

/-- The vector of the slots, where it is a thing. -/
theorem markVector_eq (hm : h₀.Marker n gcMark) (ha : h₀.Agrees h)
    (hx : vs.length + 1 ≤ 20 → o.vector ≠ 0 → o.vector ∈ h₀.things)
    (hn : unmarkedCount h₀.things h.marks < n) :
    ∃ h', h.markVector gcMark o vs = some h' ∧
      h₀.Traced (fun y => y = o.vector ∧ y ≠ 0 ∧ vs.length + 1 ≤ 20) h h' := by
  unfold markVector
  by_cases hs : vs.length + 1 ≤ 20
  · rw [if_pos hs]
    obtain ⟨h', heq, ht⟩ := markIfUnmarked_eq hm ha (hx hs) hn
    exact ⟨h', heq, ht.congr (fun y hy => .inl ⟨hy.1, hy.2.1⟩) fun y hy => ⟨hy.1, hy.2, hs⟩⟩
  · rw [if_neg hs]
    exact ⟨h, rfl, .refl fun y hy => absurd hy.2.2 hs⟩

/-- What the marker of the class marks. -/
theorem callMarker_eq (hm : h₀.Marker n gcMark) (ha : h₀.Agrees h)
    (hx : ∀ x ∈ o.kids, x ≠ 0 → x ∈ h₀.things) (hn : unmarkedCount h₀.things h.marks < n) :
    ∃ h', h.callMarker gcMark o = some (h', o.stop) ∧
      h₀.Traced (fun y => y ∈ o.kids ∧ y ≠ 0) h h' := by
  unfold callMarker GCObject.stop
  unfold GCObject.kids at hx ⊢
  cases ho : o.hook with
  | none => exact ⟨h, rfl, .refl fun y hy => by simp at hy⟩
  | some p =>
      obtain ⟨kids, k⟩ := p
      simp only [ho] at hx
      obtain ⟨h', heq, ht⟩ := foldlM_markIfUnmarked_eq hm kids ha hx hn
      exact ⟨h', by simp [heq], ht⟩

/-! ### Slots -/

/-- The things of a slot and of those behind it. -/
theorem SlotThing.cons : SlotThing (v :: vs) y ↔
    (jsvalIsGCThing v = true ∧ jsvalToGCThing v = y ∧ y ≠ 0) ∨ SlotThing vs y := by
  simp [SlotThing]

/-- The loop of `MARK_GC_THING` marks what it has found and what is in the slots to come. -/
theorem markSlots_eq (hm : h₀.Marker n gcMark) (ha : h₀.Agrees h) (hx : x ∈ h₀.things)
    (hvs : ∀ y, SlotThing vs y → y ∈ h₀.things) (hn : unmarkedCount h₀.things h.marks < n) :
    ∃ h', markSlots gcMark h x vs = some h' ∧
      h₀.Traced (fun y => y = x ∨ SlotThing vs y) h h' := by
  induction vs generalizing h x with
  | nil =>
      obtain ⟨h', heq, ht⟩ := hm h x ha hx hn
      exact ⟨h', by simp [markSlots, heq], ht.congr (fun y hy => hy.imp_right fun hs => by
        simp [SlotThing] at hs) fun y hy => .inl hy⟩
  | cons v vs ih =>
      have hrest : ∀ y, SlotThing vs y → y ∈ h₀.things := fun y hy =>
        hvs y (SlotThing.cons.2 (.inr hy))
      cases hf : (h.unmarkedThing v).filter (· ≠ x) with
      | none =>
          -- the slot has nothing to mark, or what has been found already
          obtain ⟨h', heq, ht⟩ := ih ha hx hrest hn
          refine ⟨h', by rw [markSlots, hf]; exact heq, ht.congr ?_ ?_⟩
          · rintro y (rfl | hy)
            · exact .inl (.inl rfl)
            · rcases SlotThing.cons.1 hy with ⟨hv, rfl, hne⟩ | hy
              · cases hu : h.unmarkedThing v with
                | none => exact .inr (unmarkedThing_eq_none.1 hu hv hne)
                | some z =>
                    obtain ⟨_, rfl, _⟩ := unmarkedThing_eq_some.1 hu
                    rw [hu] at hf
                    simp only [Option.filter_some, decide_eq_true_eq, ite_eq_right_iff,
                      reduceCtorEq, imp_false, not_not] at hf
                    exact .inl (.inl hf)
              · exact .inl (.inr hy)
          · rintro y (rfl | hy)
            · exact .inl rfl
            · exact .inr (SlotThing.cons.2 (.inr hy))
      | some next =>
          obtain ⟨hu, _⟩ := Option.filter_eq_some_iff.1 hf
          obtain ⟨hv, hvn, hne, _⟩ := unmarkedThing_eq_some.1 hu
          have hnext : next ∈ h₀.things := hvs next (SlotThing.cons.2 (.inl ⟨hv, hvn, hne⟩))
          obtain ⟨h₁, heq₁, ht₁⟩ := hm h x ha hx hn
          obtain ⟨h₂, heq₂, ht₂⟩ := ih (ht₁.agrees ha) hnext hrest
            (Nat.lt_of_le_of_lt (ht₁.count_le _) hn)
          refine ⟨h₂, by rw [markSlots, hf]; simp [heq₁, heq₂], (ht₁.append ht₂).congr ?_ ?_⟩
          · rintro y (rfl | hy)
            · exact .inl (.inl rfl)
            · rcases SlotThing.cons.1 hy with ⟨_, hvy, _⟩ | hy
              · exact .inl (.inr (.inl (hvy.symm.trans hvn)))
              · exact .inl (.inr (.inr hy))
          · rintro y (rfl | rfl | hy)
            · exact .inl rfl
            · exact .inr (SlotThing.cons.2 (.inl ⟨hv, hvn, hne⟩))
            · exact .inr (SlotThing.cons.2 (.inr hy))

/-- The slots of an object are traced from, first to last. -/
theorem markFirst_eq (hm : h₀.Marker n gcMark) (ha : h₀.Agrees h)
    (hvs : ∀ y, SlotThing vs y → y ∈ h₀.things) (hn : unmarkedCount h₀.things h.marks < n) :
    ∃ h', h.markFirst gcMark vs = some h' ∧ h₀.Traced (SlotThing vs) h h' := by
  induction vs with
  | nil => exact ⟨h, rfl, .refl fun y hy => by simp [SlotThing] at hy⟩
  | cons v vs ih =>
      have hrest : ∀ y, SlotThing vs y → y ∈ h₀.things := fun y hy =>
        hvs y (SlotThing.cons.2 (.inr hy))
      cases hu : h.unmarkedThing v with
      | none =>
          obtain ⟨h', heq, ht⟩ := ih hrest
          refine ⟨h', by rw [markFirst, hu]; exact heq, ht.congr (fun y hy => ?_) fun y hy =>
            SlotThing.cons.2 (.inr hy)⟩
          rcases SlotThing.cons.1 hy with ⟨hv, rfl, hne⟩ | hy
          · exact .inr (unmarkedThing_eq_none.1 hu hv hne)
          · exact .inl hy
      | some thing =>
          obtain ⟨hv, hvt, hne, _⟩ := unmarkedThing_eq_some.1 hu
          have hthing : SlotThing (v :: vs) thing := SlotThing.cons.2 (.inl ⟨hv, hvt, hne⟩)
          obtain ⟨h', heq, ht⟩ := markSlots_eq hm ha (hvs thing hthing) hrest hn
          refine ⟨h', by rw [markFirst, hu]; exact heq, ht.congr (fun y hy => ?_) ?_⟩
          · rcases SlotThing.cons.1 hy with ⟨_, hvy, _⟩ | hy
            · exact .inl (.inl (hvy.symm.trans hvt))
            · exact .inl (.inr hy)
          · rintro y (rfl | hy)
            · exact hthing
            · exact SlotThing.cons.2 (.inr hy)

end MarkHeap

end ProntoScript
