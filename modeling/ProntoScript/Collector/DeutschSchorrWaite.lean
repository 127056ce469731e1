/-
# Marking with reversed pointers

`DeutschSchorrWaite` has no stack but the slots of the objects it is in.  The frames of the
stack it would have are `fs`, objects with the slots that were followed.  `Spine` is how the
heap holds them: each slot has the object of the next frame, tagged, in place of the object
that it had, and `dswIndex` is not behind it.  `Descent` is the invariant of the loops, and
`dswStep_eq` what one round does.

The rest of the heap is as it was, and that is what the calls of `MARK_GC_THING` in between
see: every object of the spine is marked, and no call follows the slots of one that is.
-/

import ProntoScript.Collector.Traversal

namespace ProntoScript

open Marking

namespace MarkHeap

variable {h₀ hb h h' : MarkHeap} {x y v : ℤ} {n i j k : ℕ} {vs : List ℤ}
  {o : GCObject} {gcMark : MarkHeap → ℤ → Option MarkHeap}

/-! ### Words and slots -/

/-- An object is tagged by three zero bits. -/
theorem jsvalIsObject_iff : jsvalIsObject v = true ↔ v % 8 = 0 := by simp [jsvalIsObject]

/-- An object is its own thing. -/
theorem jsvalToGCThing_of_object (hv : v % 8 = 0) : jsvalToGCThing v = v := by
  simp [jsvalToGCThing, hv]

/-- A reversed slot, tagged as a boolean, still has the address of the parent. -/
theorem jsvalToGCThing_reversed (hv : v % 8 = 0) : jsvalToGCThing (jsvalReversed v) = v := by
  simp only [jsvalToGCThing, jsvalReversed]
  omega

/-- A reversed pointer is told from what else a slot may hold. -/
theorem reversed_found (hv : v % 8 = 0) (hlow : 16 ≤ v) :
    (decide (jsvalReversed v ≤ jsvalTrue) || !jsvalIsBoolean (jsvalReversed v)) = false := by
  have h₁ : ¬jsvalReversed v ≤ jsvalTrue := by
    simp only [jsvalReversed, jsvalTrue]
    omega
  have h₂ : jsvalReversed v % 8 = 6 := by
    simp only [jsvalReversed]
    omega
  simp [h₁, h₂, jsvalIsBoolean]

/-- The things of the slots from one on. -/
theorem slotThing_drop : SlotThing (vs.drop i) y ↔ ∃ j v, i ≤ j ∧ vs[j]? = some v ∧
    jsvalIsGCThing v = true ∧ jsvalToGCThing v = y ∧ y ≠ 0 := by
  constructor
  · rintro ⟨v, hv, hrest⟩
    obtain ⟨j, hj⟩ := List.mem_iff_getElem?.1 hv
    rw [List.getElem?_drop] at hj
    exact ⟨i + j, v, by omega, hj, hrest⟩
  · rintro ⟨j, v, hij, hj, hrest⟩
    refine ⟨v, List.mem_iff_getElem?.2 ⟨j - i, ?_⟩, hrest⟩
    rw [List.getElem?_drop, Nat.add_sub_cancel' hij, hj]

/-- The search of `NEXT_UNMARKED_GC_THING` passes over slots that have nothing to mark. -/
theorem nextUnmarkedGCThing_none (hk : k + n ≤ vs.length)
    (hnone : h.nextUnmarkedGCThing vs k n = none) (hj : k ≤ j) (hjn : j < k + n)
    (hv : vs[j]? = some v) : h.unmarkedThing v = none := by
  induction n generalizing k with
  | zero => omega
  | succ n ih =>
      rw [nextUnmarkedGCThing, List.getElem?_eq_getElem (by omega)] at hnone
      dsimp only at hnone
      split_ifs at hnone with hu
      by_cases hjk : j = k
      · subst hjk
        rw [List.getElem?_eq_getElem (by omega)] at hv
        obtain rfl := Option.some.inj hv
        exact Option.not_isSome_iff_eq_none.1 hu
      · exact ih (by omega) hnone (by omega) (by omega)

/-- `NEXT_UNMARKED_GC_THING` finds the first slot that has something to mark. -/
theorem nextUnmarkedGCThing_some (hsome : h.nextUnmarkedGCThing vs k n = some (i, v)) :
    k ≤ i ∧ i < k + n ∧ vs[i]? = some v ∧ (h.unmarkedThing v).isSome ∧
      ∀ j u, k ≤ j → j < i → vs[j]? = some u → h.unmarkedThing u = none := by
  induction n generalizing k with
  | zero => simp [nextUnmarkedGCThing] at hsome
  | succ n ih =>
      rw [nextUnmarkedGCThing] at hsome
      cases hk : vs[k]? with
      | none => simp [hk] at hsome
      | some u =>
          simp only [hk] at hsome
          split_ifs at hsome with hu
          · obtain ⟨rfl, rfl⟩ := Prod.mk.inj (Option.some.inj hsome)
            exact ⟨by omega, by omega, hk, hu, fun j u h₁ h₂ => by omega⟩
          · obtain ⟨h₁, h₂, h₃, h₄, h₅⟩ := ih hsome
            refine ⟨by omega, by omega, h₃, h₄, fun j u' hj hji hu' => ?_⟩
            by_cases hjk : j = k
            · rw [hjk, hk] at hu'
              obtain rfl := Option.some.inj hu'
              exact Option.not_isSome_iff_eq_none.1 hu
            · exact h₅ j u' (by omega) hji hu'

/-- The search for the reversed pointer finds it from wherever in front of it. -/
theorem findReversed_eq (hi : vs[i]? = some v)
    (hv : (decide (v ≤ jsvalTrue) || !jsvalIsBoolean v) = false)
    (hbefore : ∀ j u, k ≤ j → j < i → vs[j]? = some u →
      (decide (u ≤ jsvalTrue) || !jsvalIsBoolean u) = true) (hk : k ≤ i) (hn : i < k + n) :
    findReversed vs k n = some (i, v) := by
  induction n generalizing k with
  | zero => omega
  | succ n ih =>
      have hil : i < vs.length := (List.getElem?_eq_some_iff.1 hi).1
      rw [findReversed]
      by_cases hki : k = i
      · simp only [hki, hi, hv]
        rfl
      · rw [List.getElem?_eq_getElem (by omega)]
        have hu := hbefore k vs[k] (by omega) (by omega) (List.getElem?_eq_getElem (by omega))
        dsimp only
        rw [if_pos hu]
        exact ih (fun j u hj => hbefore j u (by omega)) (by omega) (by omega)

/-- Decoding what was encoded never goes past it. -/
theorem decode_encode_le (i n : ℕ) : decodeDSWIndex (encodeDSWIndex i n) n ≤ i := by
  unfold decodeDSWIndex encodeDSWIndex
  split_ifs with hn
  · have h₁ : i * 2 ^ 16 / n * n ≤ i * 2 ^ 16 := Nat.div_mul_le_self _ _
    calc i * 2 ^ 16 / n * n / 2 ^ 16 ≤ i * 2 ^ 16 / 2 ^ 16 := Nat.div_le_div_right h₁
      _ = i := Nat.mul_div_cancel i (by omega)
  · exact Nat.le_refl i

/-! ### Marks and writes -/

/-- Marking a thing marks this one. -/
theorem mark_marks : ((h.mark x).marks · = true) = fun y => y = x ∨ h.marks y = true := by
  funext y
  simp only [mark]
  by_cases hy : y = x <;> simp [hy]

/-- The same for each thing. -/
theorem mark_marks_iff : (h.mark x).marks y = true ↔ y = x ∨ h.marks y = true :=
  iff_of_eq (congrFun mark_marks y)

/-- Marking a thing leaves fewer to mark, which is what the run ends by. -/
theorem count_mark_lt (hx : x ∈ h₀.things) (hn : h.marks x = false) :
    unmarkedCount h₀.things (h.mark x).marks < unmarkedCount h₀.things h.marks :=
  unmarkedCount_lt (fun _ hy => mark_marks_iff.2 (.inr hy)) hx hn (mark_marks_iff.2 (.inl rfl))

/-- A mark changes no slot. -/
theorem Agrees.mark (ha : h₀.Agrees h) (x : ℤ) : h₀.Agrees (h.mark x) where
  things := ha.things
  kind := ha.kind
  slots y hy := ha.slots y (by
    cases hm : h.marks y with
    | false => rfl
    | true => rw [mark_marks_iff.2 (.inr hm)] at hy; cases hy)

/-- What remains to be followed: of the objects in `ps`, the slots from there on. -/
def Pending (h₀ : MarkHeap) (ps : List (ℤ × ℕ)) (x y : ℤ) : Prop :=
  ∃ i vs, (x, i) ∈ ps ∧ h₀.slots x = some vs ∧ SlotThing (vs.drop i) y

/-! ### The spine -/

/-- The frames `fs` as they lie in the heap: from `top`, which is where `child` was come
from, up to `JSVAL_EMPTY`. -/
inductive Spine (h₀ h : MarkHeap) : List (ℤ × ℕ) → ℤ → ℤ → Prop
  | nil (child : ℤ) : Spine h₀ h [] jsvalEmpty child
  | cons {obj child top : ℤ} {i : ℕ} {fs : List (ℤ × ℕ)} {o : GCObject} {vs : List ℤ} :
      h₀.kind obj = some (.object o) → h₀.slots obj = some vs → vs[i]? = some child →
      h.slots obj = some (vs.set i (jsvalReversed top)) →
      (o.ownsScope = true → decodeDSWIndex (h.dswIndex obj) vs.length ≤ i) →
      Spine h₀ h fs top obj → Spine h₀ h ((obj, i) :: fs) obj child

/-- The objects of the frames. -/
abbrev objects (fs : List (ℤ × ℕ)) : List ℤ := fs.map Prod.fst

/-- What a frame has left to follow: the slots behind the one that was followed. -/
abbrev rests (fs : List (ℤ × ℕ)) : List (ℤ × ℕ) := fs.map fun f => (f.1, f.2 + 1)

variable {fs : List (ℤ × ℕ)} {top child : ℤ} {d : DSW}

/-- The frames lie in another heap as well, if it has the same slots in their objects. -/
theorem Spine.transfer (hs : Spine h₀ h fs top child)
    (hf : ∀ obj ∈ objects fs, h'.slots obj = h.slots obj ∧ h'.dswIndex obj = h.dswIndex obj) :
    Spine h₀ h' fs top child := by
  induction hs with
  | nil => exact .nil _
  | @cons obj _ _ _ _ _ _ hk hvs hi hslots hindex _ ih =>
      obtain ⟨h₁, h₂⟩ := hf obj (by simp [objects])
      exact .cons hk hvs hi (h₁.trans hslots) (fun ho => h₂ ▸ hindex ho)
        (ih fun obj' ho => hf obj' (by
          simp only [objects, List.map_cons, List.mem_cons]
          exact .inr ho))

/-- The frame on top. -/
theorem Spine.head {f : ℤ × ℕ} (hs : Spine h₀ h (f :: fs) top child) : f.1 = top ∧ ∃ o vs up,
    h₀.kind top = some (.object o) ∧ h₀.slots top = some vs ∧ vs[f.2]? = some child ∧
      h.slots top = some (vs.set f.2 (jsvalReversed up)) ∧
      (o.ownsScope = true → decodeDSWIndex (h.dswIndex top) vs.length ≤ f.2) ∧
      Spine h₀ h fs up top := by
  cases hs with
  | cons hk hvs hi hslots hindex hrest => exact ⟨rfl, _, _, _, hk, hvs, hi, hslots, hindex, hrest⟩

/-- What `top` is. -/
theorem Spine.top_cases (hw : h₀.WF) (hs : Spine h₀ h fs top child) :
    top % 8 = 0 ∧ 16 ≤ top ∧ (top = jsvalEmpty ↔ fs = []) := by
  cases hs with
  | nil => exact ⟨rfl, Int.le_refl 16, by simp⟩
  | cons hk =>
      obtain ⟨ha, hl⟩ := hw.aligned _ _ hk
      exact ⟨ha, by omega, by simp only [jsvalEmpty]; constructor <;> intro e <;> [omega; cases e]⟩

/-- **The invariant of the loops.**  `hb` is the heap as it was before, in which `x` was not
marked. -/
structure Descent (h₀ hb : MarkHeap) (x : ℤ) (fs : List (ℤ × ℕ)) (d : DSW) : Prop where
  things : d.heap.things = h₀.things
  kind : d.heap.kind = h₀.kind
  spine : Spine h₀ d.heap fs d.top d.parent
  nodup : (d.parent :: objects fs).Nodup
  marked : ∀ obj ∈ d.parent :: objects fs, d.heap.marks obj = true
  fresh : ∀ obj ∈ d.parent :: objects fs, hb.marks obj = false
  reach : ∀ obj ∈ d.parent :: objects fs, Reach (· = x) h₀.Edge obj
  object : ∃ o vs, h₀.kind d.parent = some (.object o) ∧ h₀.slots d.parent = some vs ∧
    d.stop ≤ vs.length ∧ ¬∃ y, SlotThing (vs.drop d.stop) y
  slots : ∀ y, y ∉ objects fs → d.heap.slots y = hb.slots y
  index : ∀ y, hb.marks y = true → d.heap.dswIndex y = hb.dswIndex y
  visits : Visits h₀.Edge (· = x) (h₀.Pending ((d.parent, d.vp) :: rests fs))
    (hb.marks · = true) (d.heap.marks · = true)

/-- During the descent the things without a mark have the slots they had. -/
theorem Descent.agrees (hd : Descent h₀ hb x fs d) (ha : h₀.Agrees hb) : h₀.Agrees d.heap where
  things := hd.things
  kind := hd.kind
  slots y hy := by
    have hy' : y ∉ objects fs := fun hm => by
      rw [hd.marked y (List.mem_cons_of_mem _ hm)] at hy
      cases hy
    rw [hd.slots y hy']
    refine ha.slots y ?_
    cases hm : hb.marks y with
    | false => rfl
    | true => rw [hd.visits.mono y hm] at hy; cases hy

/-! ### Down -/

/-- **Down into an object.**  The vector of its slots and what its marker marks come first,
and then its own mark. -/
theorem goDown_eq (hm : h₀.Marker n gcMark) (ha : h₀.Agrees h) (hw : h₀.WF)
    (hk : h₀.kind x = some (.object o)) (hvs : h₀.slots x = some vs) (hs : h.slots x = some vs)
    (hn : unmarkedCount h₀.things h.marks < n) (top : ℤ) :
    ∃ h', goDown gcMark h x top = some ⟨h'.mark x, x, top, 0, o.stop⟩ ∧
      h₀.Traced (fun y => (y = o.vector ∧ y ≠ 0 ∧ vs.length + 1 ≤ 20) ∨ (y ∈ o.kids ∧ y ≠ 0))
        h h' := by
  obtain ⟨h₁, heq₁, ht₁⟩ := markVector_eq hm ha
    (fun hlen hne => hw.live x _ (.vector hk hvs hlen hne)) hn
  obtain ⟨h₂, heq₂, ht₂⟩ := callMarker_eq (o := o) hm (ht₁.agrees ha)
    (fun y hy hne => hw.live x y (.kid hk hvs hy hne)) (Nat.lt_of_le_of_lt (ht₁.count_le _) hn)
  refine ⟨h₂, ?_, ht₁.append ht₂⟩
  have hstop := (hw.stop x o vs hk hvs).1
  simp [goDown, ha.kind, hk, hs, heq₁, heq₂, hstop]

/-- What an object leads to is in its slots, but for what is marked first. -/
theorem Edge.object_cases (he : h₀.Edge x y) (hk : h₀.kind x = some (.object o))
    (hvs : h₀.slots x = some vs) :
    ((y = o.vector ∧ y ≠ 0 ∧ vs.length + 1 ≤ 20) ∨ (y ∈ o.kids ∧ y ≠ 0)) ∨ SlotThing vs y := by
  cases he with
  | vector hk' hvs' hlen hne =>
      obtain rfl := GCKind.object.inj (Option.some.inj (hk.symm.trans hk'))
      obtain rfl := Option.some.inj (hvs.symm.trans hvs')
      exact .inl (.inl ⟨rfl, hne, hlen⟩)
  | kid hk' hvs' hy hne =>
      obtain rfl := GCKind.object.inj (Option.some.inj (hk.symm.trans hk'))
      exact .inl (.inr ⟨hy, hne⟩)
  | slot hk' hvs' hy =>
      obtain rfl := Option.some.inj (hvs.symm.trans hvs')
      exact .inr hy
  | base hk' => rw [hk] at hk'; cases hk'
  | other hk' => rw [hk] at hk'; cases hk'

/-- What the marking of an object follows before its slots leads along an edge. -/
theorem Edge.of_object (hk : h₀.kind x = some (.object o)) (hvs : h₀.slots x = some vs)
    (hy : (y = o.vector ∧ y ≠ 0 ∧ vs.length + 1 ≤ 20) ∨ (y ∈ o.kids ∧ y ≠ 0)) : h₀.Edge x y := by
  rcases hy with ⟨rfl, hne, hlen⟩ | ⟨hy, hne⟩
  · exact .vector hk hvs hlen hne
  · exact .kid hk hvs hy hne

/-- Slots that were passed over, or followed, are no longer pending. -/
theorem pending_done {M : ℤ → Prop} {ps : List (ℤ × ℕ)} (hvs : h₀.slots x = some vs)
    (hpass : ∀ l v, j ≤ l → l < k → vs[l]? = some v → jsvalIsGCThing v = true →
      jsvalToGCThing v ≠ 0 → M (jsvalToGCThing v)) {a b : ℤ} (hp : h₀.Pending ((x, j) :: ps) a b) :
    M b ∨ h₀.Pending ((x, k) :: ps) a b := by
  obtain ⟨i, ws, hmem, hws, hb⟩ := hp
  rcases List.mem_cons.1 hmem with e | hmem
  · obtain ⟨rfl, rfl⟩ := Prod.mk.inj e
    obtain rfl := Option.some.inj (hvs.symm.trans hws)
    obtain ⟨l, v, hl, hlv, hv, rfl, hne⟩ := slotThing_drop.1 hb
    by_cases hlk : l < k
    · exact .inl (hpass l v hl hlk hlv hv hne)
    · exact .inr ⟨k, vs, by simp, hvs, slotThing_drop.2 ⟨l, v, by omega, hlv, hv, rfl, hne⟩⟩
  · exact .inr ⟨i, ws, List.mem_cons_of_mem _ hmem, hws, hb⟩

/-- With more frames more is pending. -/
theorem Pending.more {ps qs : List (ℤ × ℕ)} (hsub : ∀ p ∈ ps, p ∈ qs) {a b : ℤ}
    (hp : h₀.Pending ps a b) : h₀.Pending qs a b := by
  obtain ⟨i, vs, hmem, hrest⟩ := hp
  exact ⟨i, vs, hsub _ hmem, hrest⟩

/-! ### One round -/

/-- The object that the descent is at has its own slots: those of the objects above it are
reversed. -/
theorem Descent.slots_parent (hd : Descent h₀ hb x fs d) (ha : h₀.Agrees hb) :
    d.heap.slots d.parent = h₀.slots d.parent := by
  rw [hd.slots _ (List.nodup_cons.1 hd.nodup).1]
  exact ha.slots _ (hd.fresh _ (by simp))

/-- The second heap is the first one, but for an index that was written to. -/
structure Reindexed (h : MarkHeap) (x : ℤ) (h' : MarkHeap) : Prop where
  things : h'.things = h.things
  kind : h'.kind = h.kind
  marks : h'.marks = h.marks
  slots : h'.slots = h.slots
  index : ∀ y, y ≠ x → h'.dswIndex y = h.dswIndex y

/-- `scope->dswIndex = i`, if the object owns its scope. -/
theorem reindexed_setDSWIndex (h : MarkHeap) (x : ℤ) (c : Bool) (i : ℕ) :
    h.Reindexed x (if c then h.setDSWIndex x i else h) := by
  cases c with
  | false => exact ⟨rfl, rfl, rfl, rfl, fun _ _ => rfl⟩
  | true => exact ⟨rfl, rfl, rfl, rfl, fun y hy => by simp [setDSWIndex, hy]⟩

/-- The spine is behind the object whose index is written to. -/
theorem Descent.reindexed_spine (hd : Descent h₀ hb x fs d) (hr : d.heap.Reindexed d.parent h) :
    Spine h₀ h fs d.top d.parent := by
  refine hd.spine.transfer fun obj ho => ⟨congrFun hr.slots obj, hr.index obj fun e => ?_⟩
  exact (List.nodup_cons.1 hd.nodup).1 (e ▸ ho)

/-- The hints of the objects marked before are left alone. -/
theorem Descent.reindexed_index (hd : Descent h₀ hb x fs d) (hr : d.heap.Reindexed d.parent h)
    (hy : hb.marks y = true) : h.dswIndex y = hb.dswIndex y := by
  have hne : y ≠ d.parent := fun e => by rw [e, hd.fresh _ (by simp)] at hy; cases hy
  exact (hr.index y hne).trans (hd.index y hy)

/-- A thing that is no object is marked by `MARK_GC_THING`. -/
theorem Descent.step_thing (hw : h₀.WF) (hm : h₀.Marker n gcMark) (ha : h₀.Agrees hb)
    (hd : Descent h₀ hb x fs d) (hn : unmarkedCount h₀.things d.heap.marks < n)
    (hk : h₀.kind d.parent = some (.object o)) (hvs : h₀.slots d.parent = some vs)
    (hv : vs[k]? = some v) (hu : (d.heap.unmarkedThing v).isSome)
    (hpass : ∀ j u, d.vp ≤ j → j < k → vs[j]? = some u → d.heap.unmarkedThing u = none) :
    ∃ h', gcMark d.heap (jsvalToGCThing v) = some h' ∧
      Descent h₀ hb x fs { d with heap := h', vp := k } ∧
      unmarkedCount h₀.things h'.marks < unmarkedCount h₀.things d.heap.marks := by
  obtain ⟨z, hz⟩ := Option.isSome_iff_exists.1 hu
  obtain ⟨hgc, rfl, hne, hun⟩ := unmarkedThing_eq_some.1 hz
  have hslot : h₀.Edge d.parent (jsvalToGCThing v) :=
    .slot hk hvs ⟨v, List.mem_iff_getElem?.2 ⟨k, hv⟩, hgc, rfl, hne⟩
  obtain ⟨h', heq, ht⟩ := hm d.heap _ (hd.agrees ha) (hw.live _ _ hslot) hn
  have hreach : Reach (· = x) h₀.Edge (jsvalToGCThing v) := .step (hd.reach _ (by simp)) hslot
  refine ⟨h', heq, ?_, unmarkedCount_lt (fun _ hy => ht.mono hy) (hw.live _ _ hslot) hun
    (ht.visits.found _ rfl)⟩
  refine ⟨ht.things.trans hd.things, ht.kind.trans hd.kind, ?_, hd.nodup, ?_, hd.fresh, hd.reach,
    hd.object, ?_, ?_, ?_⟩
  · exact hd.spine.transfer fun obj ho =>
      ⟨congrFun ht.slots obj, ht.index obj (hd.marked obj (List.mem_cons_of_mem _ ho))⟩
  · exact fun obj ho => ht.mono (hd.marked obj ho)
  · exact fun y hy => (congrFun ht.slots y).trans (hd.slots y hy)
  · exact fun y hy => (ht.index y (hd.visits.mono y hy)).trans (hd.index y hy)
  · refine (hd.visits.then ht.visits fun y hy => hy ▸ hreach).done fun a b hp => ?_
    refine pending_done (M := (h'.marks · = true)) hvs (fun l u h₁ h₂ hl hgc' hne' => ?_) hp
    exact ht.mono (unmarkedThing_eq_none.1 (hpass l u h₁ h₂ hl) hgc' hne')

/-- The heap with the pointer in slot `k` reversed. -/
theorem Descent.linkSlot_eq (hd : Descent h₀ hb x fs d) (ha : h₀.Agrees hb)
    (hvs : h₀.slots d.parent = some vs) (o : GCObject) (k : ℕ) :
    (d.linkSlot o vs.length k).marks = d.heap.marks ∧
      (∀ y, y ≠ d.parent → (d.linkSlot o vs.length k).slots y = d.heap.slots y ∧
        (d.linkSlot o vs.length k).dswIndex y = d.heap.dswIndex y) ∧
      (d.linkSlot o vs.length k).slots d.parent = some (vs.set k (jsvalReversed d.top)) ∧
      (o.ownsScope = true →
        decodeDSWIndex ((d.linkSlot o vs.length k).dswIndex d.parent) vs.length ≤ k) := by
  have hpar := (hd.slots_parent ha).trans hvs
  unfold DSW.linkSlot
  cases o.ownsScope with
  | false => exact ⟨rfl, fun y hy => by simp [writeSlot, hy], by simp [writeSlot, hpar], nofun⟩
  | true =>
      refine ⟨rfl, fun y hy => by simp [writeSlot, setDSWIndex, hy],
        by simp [writeSlot, setDSWIndex, hpar], fun _ => ?_⟩
      simp only [setDSWIndex, if_pos]
      exact decode_encode_le k vs.length

/-- Reversing a pointer changes an object that is marked. -/
theorem Descent.linkSlot_agrees (hd : Descent h₀ hb x fs d) (ha : h₀.Agrees hb) (o : GCObject)
    (nslots k : ℕ) : h₀.Agrees (d.linkSlot o nslots k) := by
  have hslots : ∀ y, d.heap.marks y = false →
      (d.linkSlot o nslots k).slots y = h₀.slots y := by
    intro y hy
    have hyp : y ≠ d.parent := fun e => by rw [e, hd.marked _ (by simp)] at hy; cases hy
    rw [← (hd.agrees ha).slots y hy]
    unfold DSW.linkSlot
    split_ifs <;> simp [writeSlot, setDSWIndex, hyp]
  unfold DSW.linkSlot at hslots ⊢
  cases ho : o.ownsScope <;> rw [ho] at hslots <;> exact ⟨hd.things, hd.kind, hslots⟩

/-- What was visited, when the object in a slot is marked with what its marker marks. -/
theorem Descent.visits_down (hd : Descent h₀ hb x fs d) (hvs : h₀.slots d.parent = some vs)
    (hv : vs[k]? = some v) (hobj : jsvalIsObject v = true) (hreach : Reach (· = x) h₀.Edge v)
    {vs' : List ℤ} (hk' : h₀.kind v = some (.object o)) (hvs' : h₀.slots v = some vs')
    (hsame : h.marks = d.heap.marks)
    (ht : h₀.Traced (fun y => (y = o.vector ∧ y ≠ 0 ∧ vs'.length + 1 ≤ 20) ∨ (y ∈ o.kids ∧ y ≠ 0))
      h h')
    (hpass : ∀ j u, d.vp ≤ j → j < k → vs[j]? = some u → d.heap.unmarkedThing u = none) :
    Visits h₀.Edge (· = x) (h₀.Pending ((v, 0) :: rests ((d.parent, k) :: fs)))
      (hb.marks · = true) ((h'.mark v).marks · = true) := by
  have hvis := hd.visits.then (hsame ▸ ht.visits) fun y hy =>
    .step hreach (Edge.of_object hk' hvs' hy)
  rw [mark_marks]
  refine (hvis.mark (h₀.Pending ((v, 0) :: (d.parent, d.vp) :: rests fs)) hreach
    (fun a b hp => hp.more fun p hp' => List.mem_cons_of_mem _ hp') fun y hy => ?_).done ?_
  · rcases hy.object_cases hk' hvs' with hy | hy
    · exact .inl (ht.visits.found y hy)
    · exact .inr ⟨0, vs', by simp, hvs', by simpa using hy⟩
  · intro a b hp
    have hswap : h₀.Pending ((d.parent, d.vp) :: (v, 0) :: rests fs) a b :=
      hp.more fun p hp' => by simp only [List.mem_cons] at hp' ⊢; tauto
    refine (pending_done (M := fun y => y = v ∨ h'.marks y = true) (k := k + 1) hvs
      (fun l u h₂ h₃ hl hgc' hne' => ?_) hswap).imp_right fun hp' =>
        hp'.more fun p hp'' => by simp only [List.mem_cons, rests, List.map_cons] at hp'' ⊢; tauto
    by_cases hlk : l = k
    · rw [hlk, hv] at hl
      obtain rfl := Option.some.inj hl
      exact .inl (jsvalToGCThing_of_object (jsvalIsObject_iff.1 hobj))
    · exact .inr (ht.mono (hsame ▸ unmarkedThing_eq_none.1 (hpass l u h₂ (by omega) hl)
        hgc' hne'))

/-- Down into the object in a slot. -/
theorem Descent.step_down (hw : h₀.WF) (hm : h₀.Marker n gcMark) (ha : h₀.Agrees hb)
    (hd : Descent h₀ hb x fs d) (hn : unmarkedCount h₀.things d.heap.marks < n)
    (hk : h₀.kind d.parent = some (.object o)) (hvs : h₀.slots d.parent = some vs)
    (hv : vs[k]? = some v) (hu : (d.heap.unmarkedThing v).isSome)
    (hobj : jsvalIsObject v = true)
    (hpass : ∀ j u, d.vp ≤ j → j < k → vs[j]? = some u → d.heap.unmarkedThing u = none) :
    ∃ d', reverse gcMark d o vs.length k v = some d' ∧
      Descent h₀ hb x ((d.parent, k) :: fs) d' ∧
      unmarkedCount h₀.things d'.heap.marks < unmarkedCount h₀.things d.heap.marks := by
  obtain ⟨z, hz⟩ := Option.isSome_iff_exists.1 hu
  obtain ⟨hgc, hzv, hne, hun⟩ := unmarkedThing_eq_some.1 hz
  rw [jsvalToGCThing_of_object (jsvalIsObject_iff.1 hobj)] at hzv
  obtain rfl := hzv
  have hmem : v ∈ vs := List.mem_iff_getElem?.2 ⟨k, hv⟩
  have hslot : h₀.Edge d.parent v := .slot hk hvs
    ⟨v, hmem, hgc, jsvalToGCThing_of_object (jsvalIsObject_iff.1 hobj), hne⟩
  have hreach : Reach (· = x) h₀.Edge v := .step (hd.reach _ (by simp)) hslot
  obtain ⟨o', vs', hk', hvs'⟩ := hw.object _ o vs v hk hvs hmem hobj hne
  have hpar := List.nodup_cons.1 hd.nodup
  obtain ⟨hsame, hslots, hself, hindex⟩ := hd.linkSlot_eq ha hvs o k
  have hag := hd.linkSlot_agrees ha o vs.length k
  generalize hlink : d.linkSlot o vs.length k = h₁ at hsame hslots hself hindex hag
  have hvmarks : h₁.marks v = false := hsame ▸ hun
  obtain ⟨h', heq, ht⟩ := goDown_eq hm hag hw hk' hvs' ((hag.slots v hvmarks).trans hvs')
    (hsame ▸ hn) d.parent
  have hmono : ∀ y, d.heap.marks y = true → (h'.mark v).marks y = true := fun y hy =>
    mark_marks_iff.2 (.inr (ht.mono (hsame ▸ hy)))
  have hrev : reverse gcMark d o vs.length k v = some ⟨h'.mark v, v, d.parent, 0, o'.stop⟩ := by
    rw [reverse, hlink, jsvalToGCThing_of_object (jsvalIsObject_iff.1 hobj)]
    exact heq
  refine ⟨_, hrev, ⟨ht.things.trans hag.things, ht.kind.trans hag.kind, ?_, ?_, ?_, ?_, ?_, ?_, ?_,
    ?_, ?_⟩, ?_⟩
  · refine .cons hk hvs hv ((congrFun ht.slots _).trans hself) (fun ho => ?_) ?_
    · show decodeDSWIndex (h'.dswIndex d.parent) vs.length ≤ k
      rw [ht.index _ (hsame ▸ hd.marked _ (by simp))]
      exact hindex ho
    · refine hd.spine.transfer fun obj ho => ?_
      have hobj' : obj ≠ d.parent := fun e => hpar.1 (e ▸ ho)
      obtain ⟨h₂, h₃⟩ := hslots obj hobj'
      exact ⟨(congrFun ht.slots obj).trans h₂, (ht.index obj
        (hsame ▸ hd.marked obj (List.mem_cons_of_mem _ ho))).trans h₃⟩
  · refine List.nodup_cons.2 ⟨fun hv' => ?_, hd.nodup⟩
    rw [hd.marked v hv'] at hun
    cases hun
  · intro obj ho
    rcases List.mem_cons.1 ho with rfl | ho
    · exact mark_marks_iff.2 (.inl rfl)
    · exact hmono obj (hd.marked obj ho)
  · intro obj ho
    rcases List.mem_cons.1 ho with rfl | ho
    · cases hb' : hb.marks obj with
      | false => rfl
      | true => rw [hd.visits.mono obj hb'] at hun; cases hun
    · exact hd.fresh obj ho
  · intro obj ho
    rcases List.mem_cons.1 ho with rfl | ho
    · exact hreach
    · exact hd.reach obj ho
  · exact ⟨o', vs', hk', hvs', hw.stop _ _ _ hk' hvs'⟩
  · intro y hy
    simp only [objects, List.map_cons, List.mem_cons, not_or] at hy
    exact (congrFun ht.slots y).trans ((hslots y hy.1).1.trans (hd.slots y hy.2))
  · intro y hy
    have hyp : y ≠ d.parent := fun e => by rw [e, hd.fresh _ (by simp)] at hy; cases hy
    have hindex' : h'.dswIndex y = h₁.dswIndex y := ht.index y (hsame ▸ hd.visits.mono y hy)
    exact hindex'.trans ((hslots y hyp).2.trans (hd.index y hy))
  · exact hd.visits_down hvs hv hobj hreach hk' hvs' hsame ht hpass
  · exact unmarkedCount_lt hmono (hw.live _ _ hslot) hun (mark_marks_iff.2 (.inl rfl))

/-- **Up to the object** on top of the spine: its slot is found, since nothing in front of
the reversed pointer looks like one, and has its own value back. -/
theorem Spine.goUp_eq (hw : h₀.WF) (hkind : h.kind = h₀.kind) {f : ℤ × ℕ}
    (hs : Spine h₀ h (f :: fs) top child) :
    ∃ o vs up, h₀.kind top = some (.object o) ∧ h₀.slots top = some vs ∧
      goUp h top child = some ⟨h.writeSlot top f.2 child, top, up, f.2 + 1, vs.length⟩ ∧
      (h.writeSlot top f.2 child).slots top = some vs ∧ Spine h₀ h fs up top := by
  obtain ⟨_, o, vs, up, hk, hvs, hi, hslots, hindex, hrest⟩ := hs.head
  obtain ⟨hup, hup', _⟩ := hrest.top_cases hw
  obtain ⟨hlen, hget⟩ := List.getElem?_eq_some_iff.1 hi
  have hfind : findReversed (vs.set f.2 (jsvalReversed up))
      (if o.ownsScope then decodeDSWIndex (h.dswIndex top) vs.length else 0) vs.length =
      some (f.2, jsvalReversed up) := by
    refine findReversed_eq (by simp [hlen]) (reversed_found hup hup') (fun j u _ hj hu => ?_) ?_
      (Nat.lt_add_left _ hlen)
    · rw [List.getElem?_set_ne (by omega)] at hu
      cases hb' : jsvalIsBoolean u with
      | false => simp
      | true =>
          have := hw.boolean _ o vs u hk hvs (List.mem_iff_getElem?.2 ⟨j, hu⟩) hb'
          simp [this]
    · split_ifs with ho
      · exact hindex ho
      · exact Nat.zero_le _
  refine ⟨o, vs, up, hk, hvs, ?_, ?_, hrest⟩
  · simp only [goUp, hkind, hk, hslots, List.length_set, hfind, Option.bind_eq_bind,
      Option.bind_some, jsvalToGCThing_reversed hup]
  · simp only [writeSlot, if_pos, hslots, Option.map_some, List.set_set, ← hget,
      List.set_getElem_self]

/-- Up to the object that was come from, when there is nothing left to follow. -/
theorem Descent.step_up (hw : h₀.WF) (ha : h₀.Agrees hb) {f : ℤ × ℕ}
    (hd : Descent h₀ hb x (f :: fs) d) (hr : d.heap.Reindexed d.parent h)
    (hdone : ∀ y, h₀.Pending [(d.parent, d.vp)] d.parent y → d.heap.marks y = true) :
    ∃ d', goUp h d.top d.parent = some d' ∧ Descent h₀ hb x fs d' ∧
      d'.heap.marks = d.heap.marks := by
  have hspine := hd.reindexed_spine hr
  have hf := hspine.head.1
  obtain ⟨o, vs, up, hk, hvs, hgo, hback, hrest⟩ := hspine.goUp_eq hw (hr.kind.trans hd.kind)
  have hnd := (List.nodup_cons.1 hd.nodup).2
  rw [objects, List.map_cons, hf] at hnd
  have htop : ∀ obj ∈ d.top :: objects fs, obj ∈ d.parent :: objects (f :: fs) := by
    intro obj ho
    rw [objects, List.map_cons, hf]
    exact List.mem_cons_of_mem _ ho
  have hother : ∀ y, y ≠ d.top → (h.writeSlot d.top f.2 d.parent).slots y = h.slots y :=
    fun y hy => by simp [writeSlot, hy]
  have hindex : ∀ y, hb.marks y = true → h.dswIndex y = hb.dswIndex y :=
    fun y hy => hd.reindexed_index hr hy
  refine ⟨_, hgo, ⟨hr.things.trans hd.things, hr.kind.trans hd.kind, ?_, hnd, ?_,
    fun obj ho => hd.fresh obj (htop obj ho), fun obj ho => hd.reach obj (htop obj ho), ?_, ?_,
    hindex, ?_⟩, hr.marks⟩
  · exact hrest.transfer fun obj ho =>
      ⟨hother obj fun e => (List.nodup_cons.1 hnd).1 (e ▸ ho), rfl⟩
  · intro obj ho
    show h.marks obj = true
    rw [hr.marks]
    exact hd.marked obj (htop obj ho)
  · exact ⟨o, vs, hk, hvs, Nat.le_refl _, by simp [SlotThing]⟩
  · intro y hy
    by_cases hyt : y = d.top
    · have hfresh : hb.marks d.top = false := hd.fresh _ (htop _ (by simp))
      rw [hyt, hback, ← hvs, ha.slots _ hfresh]
    · rw [hother y hyt, hr.slots]
      exact hd.slots y (by simp only [objects, List.map_cons, List.mem_cons, hf]; tauto)
  · show Visits h₀.Edge _ _ _ (h.marks · = true)
    rw [hr.marks]
    refine hd.visits.done fun a b hp => ?_
    obtain ⟨j, ws, hmem, hrest'⟩ := hp
    rcases List.mem_cons.1 hmem with e | hmem
    · obtain ⟨rfl, rfl⟩ := Prod.mk.inj e
      exact .inl (hdone b ⟨d.vp, ws, by simp, hrest'⟩)
    · refine .inr ⟨j, ws, ?_, hrest'⟩
      rwa [rests, List.map_cons, hf] at hmem

/-- Where the search finds nothing, what the object leads to is marked. -/
theorem Descent.nothing_left (hvs : h₀.slots d.parent = some vs) (hstop : d.stop ≤ vs.length)
    (hno : ¬∃ y, SlotThing (vs.drop d.stop) y)
    (hnext : d.heap.nextUnmarkedGCThing vs d.vp (d.stop - d.vp) = none)
    (hp : h₀.Pending [(d.parent, d.vp)] d.parent y) : d.heap.marks y = true := by
  obtain ⟨j, ws, hmem, hws, hy⟩ := hp
  obtain ⟨_, rfl⟩ := Prod.mk.inj (List.mem_singleton.1 hmem)
  obtain rfl := Option.some.inj (hvs.symm.trans hws)
  obtain ⟨l, u, hl, hlu, hgc, rfl, hne⟩ := slotThing_drop.1 hy
  by_cases hls : l < d.stop
  · exact unmarkedThing_eq_none.1 (nextUnmarkedGCThing_none (by omega) hnext hl (by omega) hlu)
      hgc hne
  · exact absurd ⟨_, slotThing_drop.2 ⟨l, u, by omega, hlu, hgc, rfl, hne⟩⟩ hno

/-- The loops end in the object that they began with. -/
theorem Descent.finished (ha : h₀.Agrees hb) (hd : Descent h₀ hb x [] d)
    (hr : d.heap.Reindexed d.parent h)
    (hdone : ∀ y, h₀.Pending [(d.parent, d.vp)] d.parent y → d.heap.marks y = true) :
    h₀.Traced (· = x) hb h := by
  refine ⟨hr.things.trans (hd.things.trans ha.things.symm),
    hr.kind.trans (hd.kind.trans ha.kind.symm), ?_, fun y hy => hd.reindexed_index hr hy, ?_⟩
  · exact hr.slots.trans (funext fun y => hd.slots y (by simp [objects]))
  · rw [hr.marks]
    refine hd.visits.done fun a b hp => ?_
    obtain ⟨j, ws, hmem, hrest⟩ := hp
    obtain ⟨rfl, rfl⟩ := Prod.mk.inj (List.mem_singleton.1 hmem)
    exact .inl (hdone b ⟨d.vp, ws, by simp, hrest⟩)

/-- **One round** brings the loops nearer to their end, or is it. -/
theorem dswStep_eq (hw : h₀.WF) (hm : h₀.Marker n gcMark) (ha : h₀.Agrees hb)
    (hd : Descent h₀ hb x fs d) (hn : unmarkedCount h₀.things d.heap.marks < n) :
    (∃ d' fs', dswStep gcMark d = some (.inl d') ∧ Descent h₀ hb x fs' d' ∧
      unmarkedCount h₀.things d'.heap.marks ≤ unmarkedCount h₀.things d.heap.marks ∧
      2 * unmarkedCount h₀.things d'.heap.marks + fs'.length <
        2 * unmarkedCount h₀.things d.heap.marks + fs.length) ∨
    ∃ h', dswStep gcMark d = some (.inr h') ∧ h₀.Traced (· = x) hb h' := by
  obtain ⟨o, vs, hk, hvs, hstop, hno⟩ := hd.object
  have hs := (hd.slots_parent ha).trans hvs
  unfold dswStep
  simp only [hd.kind, hk, hs]
  cases hnext : d.heap.nextUnmarkedGCThing vs d.vp (d.stop - d.vp) with
  | some p =>
      obtain ⟨k, v⟩ := p
      obtain ⟨_, _, hv, hu, hpass⟩ := nextUnmarkedGCThing_some hnext
      dsimp only
      by_cases hobj : jsvalIsObject v = true
      · obtain ⟨d', heq, hd', hlt⟩ := hd.step_down hw hm ha hn hk hvs hv hu hobj hpass
        refine .inl ⟨d', _, by rw [if_pos hobj, heq]; rfl, hd', Nat.le_of_lt hlt, ?_⟩
        simp only [List.length_cons]
        omega
      · obtain ⟨h', heq, hd', hlt⟩ := hd.step_thing hw hm ha hn hk hvs hv hu hpass
        refine .inl ⟨_, fs, by rw [if_neg hobj, heq]; rfl, hd', Nat.le_of_lt hlt, ?_⟩
        dsimp only
        omega
  | none =>
      -- nothing is left to follow in this object
      have hdone := fun y => Descent.nothing_left (y := y) hvs hstop hno hnext
      have hr := reindexed_setDSWIndex d.heap d.parent o.ownsScope 0
      dsimp only
      cases fs with
      | nil =>
          have htop := (hd.spine.top_cases hw).2.2.2 rfl
          exact .inr ⟨_, by rw [if_pos htop], hd.finished ha hr hdone⟩
      | cons f fs =>
          obtain ⟨d', heq, hd', hmarks⟩ := hd.step_up hw ha hr hdone
          have htop : d.top ≠ jsvalEmpty := fun e =>
            nomatch (hd.spine.top_cases hw).2.2.1 e
          refine .inl ⟨d', fs, by rw [if_neg htop, heq]; rfl, hd', by rw [hmarks], ?_⟩
          rw [hmarks]
          simp only [List.length_cons]
          omega

/-- The loops come to their end. -/
theorem dswLoop_eq (hw : h₀.WF) (hm : h₀.Marker n gcMark) (ha : h₀.Agrees hb)
    (hd : Descent h₀ hb x fs d) (hn : unmarkedCount h₀.things d.heap.marks < n) {rounds : ℕ}
    (hr : 2 * unmarkedCount h₀.things d.heap.marks + fs.length < rounds) :
    ∃ h', dswLoop gcMark rounds d = some h' ∧ h₀.Traced (· = x) hb h' := by
  induction rounds generalizing d fs with
  | zero => omega
  | succ rounds ih =>
      rcases dswStep_eq hw hm ha hd hn with ⟨d', fs', heq, hd', hle, hlt⟩ | ⟨h', heq, ht⟩
      · obtain ⟨h', heq', ht⟩ := ih hd' (Nat.lt_of_le_of_lt hle hn) (by omega)
        exact ⟨h', by simp [dswLoop, heq, heq'], ht⟩
      · exact ⟨h', by simp [dswLoop, heq], ht⟩

/-- **`DeutschSchorrWaite`** of an object that has just been marked. -/
theorem deutschSchorrWaite_eq (hw : h₀.WF) (hm : h₀.Marker n gcMark) (ha : h₀.Agrees hb)
    (hx : hb.marks x = false) (hk : h₀.kind x = some (.object o)) (hvs : h₀.slots x = some vs)
    (hn : unmarkedCount h₀.things (hb.mark x).marks < n) {rounds : ℕ}
    (hr : 2 * unmarkedCount h₀.things (hb.mark x).marks < rounds) :
    ∃ h', deutschSchorrWaite gcMark rounds (hb.mark x) x = some h' ∧
      h₀.Traced (· = x) hb h' := by
  have hs : (hb.mark x).slots x = some vs := (ha.slots x hx).trans hvs
  obtain ⟨h', heq, ht⟩ := goDown_eq hm (ha.mark x) hw hk hvs hs hn jsvalEmpty
  have hself : (h'.mark x).marks = h'.marks := by
    funext y
    simp only [mark]
    split_ifs with hy
    · exact (ht.mono (hy ▸ mark_marks_iff.2 (.inl rfl))).symm
    · rfl
  have hd : Descent h₀ hb x [] ⟨h'.mark x, x, jsvalEmpty, 0, o.stop⟩ := by
    refine ⟨ht.things.trans ha.things, ht.kind.trans ha.kind, .nil _, by simp [objects],
      fun obj ho => ?_, fun obj ho => ?_, fun obj ho => ?_, ⟨o, vs, hk, hvs, hw.stop x o vs hk hvs⟩,
      fun y _ => congrFun ht.slots y, fun y hy => ht.index y (mark_marks_iff.2 (.inr hy)), ?_⟩
    · exact mark_marks_iff.2 (.inl (by simpa [objects] using ho))
    · rwa [show obj = x by simpa [objects] using ho]
    · exact .root (by simpa [objects] using ho)
    · show Visits h₀.Edge _ _ _ ((h'.mark x).marks · = true)
      rw [hself]
      have hstart := Visits.start h₀.Edge (hb.marks · = true) x
      rw [← mark_marks] at hstart
      refine (hstart.then ht.visits fun y hy =>
        .step (.root rfl) (Edge.of_object hk hvs hy)).done ?_
      rintro a y ⟨rfl, hy⟩
      rcases hy.object_cases hk hvs with hy | hy
      · exact .inl (ht.visits.found y hy)
      · exact .inr ⟨0, vs, by simp, hvs, by simpa using hy⟩
  have hle := ht.count_le h₀.things
  obtain ⟨h'', heq'', ht''⟩ := dswLoop_eq hw hm ha hd
    (show unmarkedCount h₀.things (h'.mark x).marks < n by rw [hself]; omega)
    (show 2 * unmarkedCount h₀.things (h'.mark x).marks + 0 < rounds by rw [hself]; omega)
  exact ⟨h'', by simp [deutschSchorrWaite, heq, heq''], ht''⟩

end MarkHeap

end ProntoScript
