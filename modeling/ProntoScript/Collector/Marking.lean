/-
# The mark phase marks what can be reached

`markRoots_eq`: after `js_MarkGCThing` of the roots the marked things are those that can be
reached, and the slots of the objects are as they were.  It does not matter where in between
the stack runs out, and so which objects are gone through with reversed pointers.

`WF` has what `DeutschSchorrWaite` asks of the heap beyond `MARK_GC_THING`.  Objects in the
upper half of the memory it would not find its way back from, because `v <= JSVAL_TRUE`
compares signed words; of a newborn, whose `slots` are `NULL`, it would read `slots[-1]`; and
`JSVAL_HOLE` in a slot it would take for the end of its stack.
-/

import ProntoScript.Collector.DeutschSchorrWaite

namespace ProntoScript

open Marking

namespace MarkHeap

variable {h₀ h h' : MarkHeap} {x y v : ℤ} {n : ℕ} {vs : List ℤ} {o : GCObject}
  {gcMark : MarkHeap → ℤ → Option MarkHeap}

/-! ### `MARK_GC_THING` -/

/-- A thing is marked, and then what it leads to. -/
theorem Traced.thing {S : ℤ → Prop} (ht : h₀.Traced S (h.mark x) h')
    (hsrc : ∀ y, h₀.Edge x y ↔ S y) : h₀.Traced (· = x) h h' where
  things := ht.things
  kind := ht.kind
  slots := ht.slots
  index y hy := ht.index y (mark_marks_iff.2 (.inr hy))
  visits := by
    have hstart := Visits.start h₀.Edge (h.marks · = true) x
    rw [← mark_marks] at hstart
    refine (hstart.then ht.visits fun y hy => .step (.root rfl) ((hsrc y).2 hy)).done ?_
    rintro a y ⟨rfl, hy⟩
    exact .inl (ht.visits.found y ((hsrc y).1 hy))

/-- `MARK_GC_THING` of an object, whichever way it goes about it. -/
theorem markObject_eq (hw : h₀.WF) (hm : h₀.Marker n gcMark) (ha : h₀.Agrees h)
    (hx : h.marks x = false) (hk : h₀.kind x = some (.object o))
    (hn : unmarkedCount h₀.things (h.mark x).marks < n) (check : StackCheck) {rounds : ℕ}
    (hr : 2 * unmarkedCount h₀.things (h.mark x).marks < rounds) :
    ∃ h', (h.mark x).markObject gcMark check rounds x o = some h' ∧ h₀.Traced (· = x) h h' := by
  have hs : (h.mark x).slots x = h₀.slots x := ha.slots x hx
  unfold markObject
  rw [hs]
  cases hvs : h₀.slots x with
  | none =>
      refine ⟨_, rfl, Traced.thing (S := fun _ => False) (.refl nofun) fun y =>
        ⟨fun he => ?_, False.elim⟩⟩
      cases he with
      | vector _ hvs' => rw [hvs] at hvs'; cases hvs'
      | kid _ hvs' => rw [hvs] at hvs'; cases hvs'
      | slot _ hvs' => rw [hvs] at hvs'; cases hvs'
      | base hk' => rw [hk] at hk'; cases hk'
      | other hk' => rw [hk] at hk'; cases hk'
  | some vs =>
      dsimp only
      by_cases hc : check (h.mark x) = true
      · rw [if_pos hc]
        obtain ⟨h₁, heq₁, ht₁⟩ := markVector_eq (o := o) hm (ha.mark x)
          (fun (hlen : vs.length + 1 ≤ 20) hne => hw.live x _ (.vector hk hvs hlen hne)) hn
        obtain ⟨h₂, heq₂, ht₂⟩ := callMarker_eq (o := o) hm (ht₁.agrees (ha.mark x))
          (fun y hy hne => hw.live x y (.kid hk hvs hy hne))
          (Nat.lt_of_le_of_lt (ht₁.count_le _) hn)
        have ht₁₂ := ht₁.append ht₂
        obtain ⟨hle, hno⟩ := hw.stop x o vs hk hvs
        have hall : ∀ y, SlotThing (vs.take o.stop) y ↔ SlotThing vs y := fun y => by
          have hsplit : SlotThing vs y ↔
              SlotThing (vs.take o.stop) y ∨ SlotThing (vs.drop o.stop) y := by
            conv_lhs => rw [← List.take_append_drop o.stop vs]
            simp only [SlotThing, List.mem_append, or_and_right, exists_or]
          rw [hsplit]
          exact ⟨.inl, fun hy => hy.resolve_right fun hy => hno ⟨y, hy⟩⟩
        obtain ⟨h₃, heq₃, ht₃⟩ := markFirst_eq hm (ht₁₂.agrees (ha.mark x))
          (fun y (hy : SlotThing (vs.take o.stop) y) => hw.live x y (.slot hk hvs ((hall y).1 hy)))
          (Nat.lt_of_le_of_lt (ht₁₂.count_le _) hn)
        refine ⟨h₃, by simp [heq₁, heq₂, hle, heq₃], (ht₁₂.append ht₃).thing fun y => ?_⟩
        rw [hall y]
        constructor
        · exact fun he => he.object_cases hk hvs
        · rintro (hy | hy)
          · exact Edge.of_object hk hvs hy
          · exact .slot hk hvs hy
      · rw [if_neg hc]
        exact deutschSchorrWaite_eq hw hm ha hx hk hvs hn hr

/-- **`MARK_GC_THING`** marks what can be reached, whatever stack there is. -/
theorem markGCThing_marker (hw : h₀.WF) (check : StackCheck) (fuel : ℕ) :
    h₀.Marker fuel (markGCThing check fuel) := by
  induction fuel with
  | zero => exact fun _ _ _ _ hn => absurd hn (Nat.not_lt_zero _)
  | succ fuel ih =>
      intro h x ha hx hn
      obtain ⟨kind, hk⟩ := Option.isSome_iff_exists.1 (hw.known x hx)
      rw [markGCThing, ha.kind, hk]
      dsimp only
      by_cases hm : h.marks x = true
      · exact ⟨h, by rw [if_pos hm], .refl fun y hy => hy ▸ hm⟩
      · rw [if_neg hm]
        rw [Bool.not_eq_true] at hm
        have hlt := count_mark_lt hx hm
        have hn' : unmarkedCount h₀.things (h.mark x).marks < fuel := by omega
        cases kind with
        | object o => exact markObject_eq hw ih ha hm hk hn' check (by omega)
        | string base =>
            cases base with
            | none =>
                refine ⟨_, rfl, Traced.thing (S := fun _ => False) (.refl nofun) fun y =>
                  ⟨fun he => ?_, False.elim⟩⟩
                cases he with
                | vector hk' | kid hk' | slot hk' | base hk' | other hk' =>
                    rw [hk] at hk'
                    cases hk'
            | some b =>
                obtain ⟨h', heq, ht⟩ := markIfUnmarked_eq (x := b) ih (ha.mark x)
                  (fun hne => hw.live x b (.base hk hne)) hn'
                refine ⟨h', heq, ht.thing fun y => ⟨fun he => ?_, ?_⟩⟩
                · cases he with
                  | base hk' hne =>
                      have he' := GCKind.string.inj (Option.some.inj (hk.symm.trans hk'))
                      exact ⟨(Option.some.inj he').symm, hne⟩
                  | vector hk' | kid hk' | slot hk' | other hk' => rw [hk] at hk'; cases hk'
                · rintro ⟨rfl, hne⟩
                  exact .base hk hne
        | other kids =>
            obtain ⟨h', heq, ht⟩ := foldlM_markIfUnmarked_eq ih kids (ha.mark x)
              (fun y hy hne => hw.live x y (.other hk hy hne)) hn'
            refine ⟨h', heq, ht.thing fun y => ⟨fun he => ?_, fun hy => .other hk hy.1 hy.2⟩⟩
            cases he with
            | other hk' hy hne =>
                obtain rfl := GCKind.other.inj (Option.some.inj (hk.symm.trans hk'))
                exact ⟨hy, hne⟩
            | vector hk' | kid hk' | slot hk' | base hk' => rw [hk] at hk'; cases hk'

/-- **The mark phase marks what the roots reach.**  From a heap without marks, and however
often `JS_CHECK_STACK_SIZE` sends it down the reversed pointers, it comes to an end, marks
the things that can be reached and no others, and leaves every slot as it was.  Source:
`js_MarkGCThing` with `MARK_GC_THING` (lines 1020-1238) and `DeutschSchorrWaite`
(lines 1259-1441) of `js/src/jsgc.c`. -/
theorem markRoots_eq (hw : h₀.WF) (hclear : ∀ x, h₀.marks x = false) (check : StackCheck)
    (roots : List ℤ) (hroots : ∀ x ∈ roots, x ≠ 0 → x ∈ h₀.things) :
    ∃ h', h₀.markRoots check roots = some h' ∧ h'.slots = h₀.slots ∧
      ∀ x, h'.marks x = true ↔ Reach (fun r => r ∈ roots ∧ r ≠ 0) h₀.Edge x := by
  have hle : unmarkedCount h₀.things h₀.marks < h₀.things.length + 1 :=
    Nat.lt_succ_of_le List.countP_le_length
  obtain ⟨h', heq, ht⟩ := foldlM_markIfUnmarked_eq
    (markGCThing_marker hw check (h₀.things.length + 1)) roots (Agrees.refl h₀) hroots hle
  refine ⟨h', heq, ht.slots, fun x => ?_⟩
  have hvis := ht.visits
  rw [show (h₀.marks · = true) = fun _ => False from funext fun y => by simp [hclear y]] at hvis
  exact hvis.reach_iff x

/-- Two objects that refer to each other, with their vectors. -/
def twoObjects : MarkHeap where
  things := [24, 32, 40, 48]
  kind := fun x =>
    if x = 24 then some (.object ⟨32, none, 3, 4, true⟩)
    else if x = 40 then some (.object ⟨48, some ([24], 4), 4, 4, false⟩)
    else if x = 32 ∨ x = 48 then some (.other [])
    else none
  slots := fun x =>
    if x = 24 then some [0, 40, 14, 1] else if x = 40 then some [24, 6, 24, 40] else none
  marks := fun _ => false
  dswIndex := fun _ => 0

/-- The objects of the example, with their slots. -/
theorem twoObjects_kind (hk : twoObjects.kind x = some (.object o))
    (hvs : twoObjects.slots x = some vs) :
    (x = 24 ∧ o = ⟨32, none, 3, 4, true⟩ ∧ vs = [0, 40, 14, 1]) ∨
      (x = 40 ∧ o = ⟨48, some ([24], 4), 4, 4, false⟩ ∧ vs = [24, 6, 24, 40]) := by
  simp only [twoObjects] at hk hvs
  split_ifs at hk hvs with h₁ h₂
  · exact .inl ⟨h₁, (GCKind.object.inj (Option.some.inj hk)).symm, (Option.some.inj hvs).symm⟩
  · exact .inr ⟨h₂, (GCKind.object.inj (Option.some.inj hk)).symm, (Option.some.inj hvs).symm⟩

/-- The example is a heap the collector is made for. -/
theorem twoObjects_wf : twoObjects.WF where
  known := by decide
  live x y he := by
    cases he with
    | vector hk hvs =>
        rcases twoObjects_kind hk hvs with ⟨rfl, rfl, rfl⟩ | ⟨rfl, rfl, rfl⟩ <;> decide
    | kid hk hvs hy =>
        rcases twoObjects_kind hk hvs with ⟨rfl, rfl, rfl⟩ | ⟨rfl, rfl, rfl⟩
        · simp [GCObject.kids] at hy
        · rw [show y = 24 by simpa [GCObject.kids] using hy]
          decide
    | slot hk hvs hy =>
        obtain ⟨v, hv, hgc, rfl, hne⟩ := hy
        revert hgc hne
        rcases twoObjects_kind hk hvs with ⟨rfl, rfl, rfl⟩ | ⟨rfl, rfl, rfl⟩ <;>
          revert v <;> decide
    | base hk => simp only [twoObjects] at hk; split_ifs at hk <;> cases hk
    | other hk hy =>
        simp only [twoObjects] at hk
        split_ifs at hk <;> cases hk
        simp at hy
  aligned x o hk := by
    simp only [twoObjects] at hk
    split_ifs at hk with h₁ h₂
    · rw [h₁]; decide
    · rw [h₂]; decide
    · cases hk
  object x o vs v hk hvs hv hobj hne := by
    have hv' : v = 24 ∨ v = 40 := by
      revert hobj hne
      rcases twoObjects_kind hk hvs with ⟨rfl, rfl, rfl⟩ | ⟨rfl, rfl, rfl⟩ <;> revert v <;> decide
    rcases hv' with rfl | rfl <;> exact ⟨_, _, rfl, rfl⟩
  boolean x o vs v hk hvs hv := by
    rcases twoObjects_kind hk hvs with ⟨rfl, rfl, rfl⟩ | ⟨rfl, rfl, rfl⟩ <;> revert v <;> decide
  stop x o vs hk hvs := by
    rcases twoObjects_kind hk hvs with ⟨rfl, rfl, rfl⟩ | ⟨rfl, rfl, rfl⟩
    · refine ⟨by decide, ?_⟩
      rintro ⟨y, v, hv, hgc, _⟩
      rw [show v = 1 by simpa [GCObject.stop] using hv] at hgc
      exact absurd hgc (by decide)
    · exact ⟨by decide, by simp [SlotThing, GCObject.stop]⟩

/-- Without any stack both objects are found. -/
theorem markRoots_twoObjects :
    ∃ h', twoObjects.markRoots (fun _ => false) [24] = some h' ∧ h'.slots = twoObjects.slots ∧
      ∀ x, h'.marks x = true ↔ Reach (fun r => r ∈ [24] ∧ r ≠ 0) twoObjects.Edge x :=
  markRoots_eq twoObjects_wf (fun _ => rfl) (fun _ => false) [24] (by decide)

end MarkHeap

end ProntoScript
