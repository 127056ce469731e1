/-
# The private slot

What the operations of `ProntoScript.Native.Slots` do to the slot of the private data,
and to the slots handed out to properties (`Moves`).  An operation writes to the private
slot only if it hands it out, or did so before (`exec_moves`).  So a class that asks for
private data keeps it whatever a script does (`private_kept`), and an instance of
`JSUnit` exactly as long as no property of its own needs a slot (`suite_kept_iff`).
-/

import Mathlib.Tactic.SplitIfs
import ProntoScript.Native.Slots

namespace ProntoScript
namespace Slots

open Transition (Run Guarded Keeping)

/-! ### What an operation moves -/

/-- A class that asks for private data has its properties behind it. -/
theorem JSClass.private_lt_slotFree {clasp : JSClass} (h : clasp.hasPrivate = true) :
    JSSLOT_PRIVATE < clasp.slotFree := by
  rw [slotFree, slotStart, if_pos h]
  omega

namespace JSObject

/-- A property has the slot, or an assignment under way is to store to it. -/
def Occupied (o : JSObject) (n : ℕ) : Prop :=
  (∃ id prop, o.property? id = some prop ∧ prop.slot = some n) ∨ some n ∈ o.setting

/-- The first free slot of the object. -/
def freeslot (o : JSObject) : ℕ := (o.scope.map JSScope.freeslot).getD o.clasp.slotFree

/-- The slots up to the private one are there. -/
structure HasRoom (o : JSObject) : Prop where
  slots : JS_INITIAL_NSLOTS ≤ o.slots.length
  nslots : ∀ scope, o.scope = some scope → JS_INITIAL_NSLOTS ≤ scope.nslots

/-- What an operation does to an object if `new` are the slots it hands out. -/
structure Moves (new : ℕ → Prop) (o o' : JSObject) : Prop where
  clasp : o'.clasp = o.clasp
  room : o.HasRoom → o'.HasRoom
  word : o.HasRoom → o'.slots[JSSLOT_PRIVATE]? = o.slots[JSSLOT_PRIVATE]? ∨
    (o.Occupied JSSLOT_PRIVATE ∨ new JSSLOT_PRIVATE) ∧
      ∃ v, o'.slots[JSSLOT_PRIVATE]? = some (.value v)
  occupied : ∀ n, o'.Occupied n → o.Occupied n ∨ new n
  free : o.freeslot ≤ o'.freeslot ∨ ∃ n, (o.Occupied n ∨ new n) ∧ n ≤ o'.freeslot

section

variable {new : ℕ → Prop} {o o' o'' : JSObject} {scope scope' : JSScope} {id : JSString}
  {prop : JSScopeProperty} {n : ℕ} {v : JSVal} {mem : Bool}

/-- Nothing is handed out where nothing happens. -/
theorem Moves.refl : Moves new o o :=
  ⟨rfl, id, fun _ => .inl rfl, fun _ h => .inl h, .inl (Nat.le_refl _)⟩

/-- Two operations hand out what either does. -/
theorem Moves.trans (h : Moves new o o') (h' : Moves new o' o'') : Moves new o o'' := by
  have hocc : ∀ n, o'.Occupied n ∨ new n → o.Occupied n ∨ new n :=
    fun n hn => hn.elim (h.occupied n) .inr
  refine ⟨h'.clasp.trans h.clasp, fun hr => h'.room (h.room hr), fun hr => ?_,
    fun n hn => hocc n (h'.occupied n hn), ?_⟩
  · rcases h'.word (h.room hr) with heq | ⟨hn, hv⟩
    · rw [heq]
      exact h.word hr
    · exact .inr ⟨hocc _ hn, hv⟩
  · rcases h'.free with hle' | ⟨n, hn, hle'⟩
    · rcases h.free with hle | ⟨n, hn, hle⟩
      · exact .inl (by omega)
      · exact .inr ⟨n, hn, by omega⟩
    · exact .inr ⟨n, hocc n hn, hle'⟩

/-- The object gets a scope of its own. -/
theorem moves_getMutableScope (h : o.jsGetMutableScope mem = some scope) :
    Moves new o (o.setScope scope) := by
  rw [jsGetMutableScope] at h
  cases hs : o.scope with
  | some own =>
      rw [hs] at h
      obtain rfl : own = scope := Option.some.inj h
      have hsame : o.setScope own = o := by rw [setScope, ← hs]
      rw [hsame]
      exact .refl
  | none =>
      rw [hs] at h
      cases mem with
      | false => cases h
      | true =>
          obtain rfl := Option.some.inj h
          refine ⟨rfl, fun hr => ⟨hr.slots, ?_⟩, fun _ => .inl rfl, ?_, .inl ?_⟩
          · rintro _ ⟨⟩
            exact Nat.le_refl _
          · rintro n (⟨id, prop, hprop, -⟩ | hn)
            · cases hprop
            · exact .inl (.inr hn)
          · show (o.scope.map JSScope.freeslot).getD o.clasp.slotFree ≤ _
            rw [hs]
            exact Nat.le_refl _

/-- A value is stored. -/
theorem moves_setSlot (h : n = JSSLOT_PRIVATE → o.Occupied n ∨ new n) :
    Moves new o (o.setSlot n v) := by
  refine ⟨rfl, fun hr => ⟨?_, hr.nslots⟩, fun hr => ?_, fun n hn => .inl hn, .inl (Nat.le_refl _)⟩
  · rw [setSlot, List.length_set]
    exact hr.slots
  · by_cases hn : n = JSSLOT_PRIVATE
    · subst hn
      have hlt : JSSLOT_PRIVATE < o.slots.length := Nat.lt_of_lt_of_le (by decide) hr.slots
      exact .inr ⟨h rfl, v, by rw [setSlot, List.getElem?_set_self hlt]⟩
    · exact .inl (by rw [setSlot, List.getElem?_set_ne hn])

/-- A property is entered, replaced or removed. -/
theorem moves_enter {entry : Option JSScopeProperty}
    (h : ∀ prop n, entry = some prop → prop.slot = some n →
      (o.setScope scope).Occupied n ∨ new n) :
    Moves new (o.setScope scope) (o.setScope (enter scope id entry)) := by
  refine ⟨rfl, fun hr => ⟨hr.slots, ?_⟩, fun _ => .inl rfl, ?_, .inl (Nat.le_refl _)⟩
  · rintro _ ⟨⟩
    exact hr.nslots scope rfl
  · rintro n (⟨id', prop, hprop, hn⟩ | hn)
    · by_cases hid : id' = id
      · refine h prop n ?_ hn
        simpa [property?, setScope, enter, hid] using hprop
      · refine .inl (.inl ⟨id', prop, ?_, hn⟩)
        simpa [property?, setScope, enter, hid] using hprop
    · exact .inl (.inr hn)

/-- A property without a slot of its own is handed none. -/
theorem moves_leave : Moves new (o.setScope scope) (o.setScope (enter scope id none)) :=
  moves_enter fun _ _ hnone => by cases hnone

/-- The vector of slots is replaced by one that is no shorter than the initial one. -/
theorem getElem?_allocSlots {slots : List SlotWord} (hn : JS_INITIAL_NSLOTS ≤ n)
    (hlen : JS_INITIAL_NSLOTS ≤ slots.length) :
    JS_INITIAL_NSLOTS ≤ (allocSlots slots n).length ∧
      (allocSlots slots n)[JSSLOT_PRIVATE]? = slots[JSSLOT_PRIVATE]? := by
  have h5 : JS_INITIAL_NSLOTS = 5 := rfl
  have h3 : JSSLOT_PRIVATE = 3 := rfl
  constructor
  · rw [allocSlots, List.length_append, List.length_take, List.length_replicate]
    omega
  · rw [allocSlots, List.getElem?_append_left (by rw [List.length_take]; omega),
      List.getElem?_take_of_lt (by omega)]

/-- The numbers of the scope change, with a new vector of slots or the old one. -/
theorem moves_resize {slots : List SlotWord} {freeslot nslots : ℕ}
    (hslots : (o.setScope scope).HasRoom →
      JS_INITIAL_NSLOTS ≤ nslots ∧ JS_INITIAL_NSLOTS ≤ slots.length ∧
        slots[JSSLOT_PRIVATE]? = o.slots[JSSLOT_PRIVATE]?)
    (hfree : scope.freeslot ≤ freeslot ∨
      ∃ n, ((o.setScope scope).Occupied n ∨ new n) ∧ n ≤ freeslot) :
    Moves new (o.setScope scope)
      (setScope { o with slots } { scope with freeslot, nslots }) := by
  refine ⟨rfl, fun hr => ⟨(hslots hr).2.1, ?_⟩, fun hr => .inl (hslots hr).2.2, fun n hn => .inl hn,
    hfree⟩
  rintro _ ⟨⟩
  exact (hslots hr).1

variable (new) in
/-- `js_AllocSlot`. -/
theorem moves_allocSlot {slot : Option ℕ} (h : jsAllocSlot o scope mem = (o', scope', slot)) :
    Moves new (o.setScope scope) (o'.setScope scope') ∧ scope'.props = scope.props ∧
      ∀ n, slot = some n → n = nextSlot o.clasp scope ∧ n < scope'.freeslot := by
  have hle : scope.freeslot ≤ nextSlot o.clasp scope := by
    rw [nextSlot]
    split_ifs <;> omega
  have hsame : (o.setScope scope).HasRoom → JS_INITIAL_NSLOTS ≤ scope.nslots ∧
      JS_INITIAL_NSLOTS ≤ o.slots.length ∧ o.slots[JSSLOT_PRIVATE]? = o.slots[JSSLOT_PRIVATE]? :=
    fun hr => ⟨hr.nslots scope rfl, hr.slots, rfl⟩
  unfold jsAllocSlot at h
  dsimp only at h
  split_ifs at h with hfull hmem <;> cases h
  · refine ⟨moves_resize (fun hr => ?_) (.inl (by omega)), rfl, ?_⟩
    · have hroom := hsame hr
      have hn : JS_INITIAL_NSLOTS ≤ nextSlot o.clasp scope + (nextSlot o.clasp scope + 1) / 2 := by
        omega
      exact ⟨hn, getElem?_allocSlots hn hroom.2.1⟩
    · rintro n ⟨⟩
      exact ⟨rfl, Nat.lt_succ_self _⟩
  · refine ⟨moves_resize hsame (.inl hle), rfl, ?_⟩
    rintro n ⟨⟩
  · refine ⟨moves_resize hsame (.inl (by omega)), rfl, ?_⟩
    rintro n ⟨⟩
    exact ⟨rfl, Nat.lt_succ_self _⟩

/-- `js_FreeSlot`, of a slot that was in use. -/
theorem moves_freeSlot (h : (o.setScope scope).Occupied n) :
    Moves new (o.setScope scope)
        ((jsFreeSlot o scope n mem).1.setScope (jsFreeSlot o scope n mem).2) ∧
      (jsFreeSlot o scope n mem).2.props = scope.props := by
  have hfree : scope.freeslot ≤ (if scope.freeslot = n + 1 then n else scope.freeslot) ∨
      ∃ m, ((o.setScope scope).Occupied m ∨ new m) ∧
        m ≤ (if scope.freeslot = n + 1 then n else scope.freeslot) := by
    split_ifs
    · exact .inr ⟨n, .inl h, Nat.le_refl _⟩
    · exact .inl (Nat.le_refl _)
  have hset : Moves new (o.setScope scope) ((o.setSlot n .void).setScope scope) :=
    moves_setSlot (o := o.setScope scope) fun _ => .inl h
  unfold jsFreeSlot
  dsimp only
  generalize (if scope.freeslot = n + 1 then n else scope.freeslot) = free at hfree ⊢
  split_ifs
  · refine ⟨hset.trans (moves_resize (fun hr => ?_) hfree), rfl⟩
    have hn : JS_INITIAL_NSLOTS ≤ max (free + free / 2) JS_INITIAL_NSLOTS := Nat.le_max_right _ _
    exact ⟨hn, getElem?_allocSlots hn hr.slots⟩
  · exact ⟨hset.trans (moves_resize (fun hr => ⟨hr.nslots scope rfl, hr.slots, rfl⟩) hfree), rfl⟩

/-- A valid slot is the slot of the property. -/
theorem validSlot_eq (h : validSlot scope prop = some n) :
    prop.slot = some n ∧ n < scope.freeslot := by
  rw [validSlot, Option.filter_eq_some_iff] at h
  exact ⟨h.1, by simpa using h.2⟩

/-- The place of a property to be entered. -/
theorem moves_placeProperty {shared : Bool} {kept : Option ℕ} {place : Option (Option ℕ)}
    (hk : (if shared then none else keptSlot scope id) = kept)
    (h : placeProperty o scope shared kept mem = (o', scope', place)) :
    Moves new (o.setScope scope) (o'.setScope scope') ∧ scope'.props = scope.props ∧
      ∀ n, place = some (some n) → (o'.setScope scope').Occupied n ∨
        shared = false ∧ keptSlot scope id = none ∧ n = nextSlot o.clasp scope := by
  subst hk
  unfold placeProperty at h
  cases shared with
  | true =>
      cases h
      refine ⟨.refl, rfl, ?_⟩
      rintro n ⟨⟩
  | false =>
      simp only [Bool.false_eq_true, if_false] at h
      cases hkept : keptSlot scope id with
      | some slot =>
          rw [hkept] at h
          cases h
          refine ⟨.refl, rfl, ?_⟩
          rintro n ⟨⟩
          obtain ⟨prop, hprop, hvalid⟩ := Option.bind_eq_some_iff.1 hkept
          exact .inl (.inl ⟨id, prop, hprop, (validSlot_eq hvalid).1⟩)
      | none =>
          rw [hkept] at h
          generalize ha : jsAllocSlot o scope mem = a at h
          obtain ⟨o₁, scope₁, slot⟩ := a
          obtain ⟨hmoves, hprops, hslot⟩ := moves_allocSlot new ha
          cases h
          refine ⟨hmoves, hprops, fun n hn => .inr ?_⟩
          obtain ⟨m, hm, heq⟩ := Option.map_eq_some_iff.1 hn
          cases heq
          exact ⟨rfl, rfl, (hslot n hm).1⟩

variable (new) in
/-- `js_AddScopeProperty`. -/
theorem moves_addScopeProperty {attrs : PropertyAttrs} {r : SlotReplies}
    {result : Option JSScopeProperty}
    (h : jsAddScopeProperty o scope id attrs r = (o', scope', result))
    (hnew : scope.sealed = false → attrs.shared = false → keptSlot scope id = none →
      scope.props id ≠ some ⟨none, attrs⟩ → r.node = true → new (nextSlot o.clasp scope)) :
    Moves new (o.setScope scope) (o'.setScope scope') ∧
      ∀ prop, result = some prop → scope'.props id = some prop := by
  unfold jsAddScopeProperty at h
  dsimp only at h
  generalize hk : (if attrs.shared = true then none else keptSlot scope id) = kept at h
  cases hsealed : scope.sealed with
  | true =>
      rw [hsealed, if_pos rfl] at h
      cases h
      refine ⟨.refl, ?_⟩
      rintro prop ⟨⟩
  | false =>
      rw [hsealed, if_neg Bool.false_ne_true] at h
      by_cases hsame : scope.props id = some ⟨kept, attrs⟩
      · rw [if_pos hsame] at h
        cases h
        refine ⟨.refl, ?_⟩
        rintro prop ⟨⟩
        exact hsame
      · rw [if_neg hsame] at h
        generalize hp : placeProperty o scope attrs.shared kept r.slots = a at h
        obtain ⟨o₁, scope₁, place⟩ := a
        obtain ⟨hmoves, -, hplace⟩ := moves_placeProperty hk hp
        cases place with
        | none =>
            cases h
            refine ⟨hmoves, ?_⟩
            rintro prop ⟨⟩
        | some slot =>
            dsimp only at h
            cases hnode : r.node with
            | false =>
                rw [hnode] at h
                cases h
                refine ⟨hmoves, ?_⟩
                rintro prop ⟨⟩
            | true =>
                rw [hnode] at h
                cases h
                refine ⟨hmoves.trans (moves_enter ?_), ?_⟩
                · rintro prop n ⟨⟩ hn
                  rcases hplace n (congrArg some hn) with hocc | ⟨hshared, hkept, rfl⟩
                  · exact .inl hocc
                  · rw [← hk, hshared, hkept] at hsame
                    exact .inr (hnew hsealed hshared hkept hsame hnode)
                · rintro prop ⟨⟩
                  exact Function.update_self ..

/-- `js_Clear`. -/
theorem moves_clear (hnew : ∀ n, o.scope.isSome = true → o.clasp.slotFree ≤ n → new n) :
    Moves new o o.jsClear := by
  unfold jsClear
  cases hscope : o.scope with
  | none => exact .refl
  | some scope =>
      have hown : o.scope.isSome = true := by rw [hscope]; rfl
      refine ⟨rfl, fun hr => ⟨?_, ?_⟩, fun hr => ?_, ?_, ?_⟩
      · rw [List.length_mapIdx]
        exact hr.slots
      · rintro _ ⟨⟩
        exact hr.nslots scope hscope
      · have hlt : JSSLOT_PRIVATE < o.slots.length := Nat.lt_of_lt_of_le (by decide) hr.slots
        rw [List.getElem?_mapIdx, List.getElem?_eq_getElem hlt, Option.map_some]
        split_ifs with hbehind
        · exact .inr ⟨.inr (hnew _ hown hbehind.1), .void, rfl⟩
        · exact .inl rfl
      · rintro n (⟨id', prop', hprop, -⟩ | hn)
        · cases hprop
        · exact .inl (.inr hn)
      · exact .inr ⟨o.clasp.slotFree, .inr (hnew _ hown (Nat.le_refl _)), Nat.le_refl _⟩

/-- The scope is sealed. -/
theorem moves_seal : Moves new (o.setScope scope) (o.setScope { scope with sealed := true }) := by
  refine ⟨rfl, fun hr => ⟨hr.slots, ?_⟩, fun _ => .inl rfl, fun n hn => .inl hn,
    .inl (Nat.le_refl _)⟩
  rintro _ ⟨⟩
  exact hr.nslots scope rfl

variable (new o) in
/-- `js_RemoveScopeProperty`. -/
theorem moves_removeScopeProperty {r : SlotReplies} (hprop : scope.props id = some prop) :
    Moves new (o.setScope scope) ((jsRemoveScopeProperty o scope id prop r).1.setScope
      (jsRemoveScopeProperty o scope id prop r).2) := by
  unfold jsRemoveScopeProperty
  cases !scope.sealed && r.node with
  | false => exact .refl
  | true =>
      rw [if_pos rfl]
      cases hvalid : validSlot scope prop with
      | none => exact moves_leave
      | some slot =>
          have hocc : (o.setScope scope).Occupied slot :=
            .inl ⟨id, prop, hprop, (validSlot_eq hvalid).1⟩
          exact (moves_freeSlot hocc).1.trans moves_leave

/-- The end of `js_SetProperty`. -/
theorem moves_setValue (hprop : o.property? id = some prop) : Moves new o (o.setValue prop v) := by
  have hpush : ∀ slot, (∀ n, slot = some n → o.Occupied n) →
      Moves new o { o with setting := slot :: o.setting } := by
    refine fun slot hslot => ⟨rfl, fun hr => ⟨hr.slots, hr.nslots⟩, fun _ => .inl rfl, ?_,
      .inl (Nat.le_refl _)⟩
    rintro n (hp | hn)
    · exact .inl (.inl hp)
    · rcases List.mem_cons.1 hn with rfl | hn
      · exact .inl (hslot n rfl)
      · exact .inl (.inr hn)
  unfold setValue
  cases hslot : prop.slot with
  | none =>
      refine hpush none ?_
      rintro n ⟨⟩
  | some slot =>
      have hocc : o.Occupied slot := .inl ⟨id, prop, hprop, hslot⟩
      dsimp only
      split_ifs
      · exact moves_setSlot fun _ => .inl hocc
      · refine hpush (some slot) ?_
        rintro n ⟨⟩
        exact hocc

/-- The setter of an assignment under way returns. -/
theorem moves_setterReturned {result : Option JSVal} (h : o.setterReturned result = some o') :
    Moves new o o' := by
  unfold setterReturned at h
  cases hsetting : o.setting with
  | nil =>
      rw [hsetting] at h
      cases h
  | cons slot rest =>
      rw [hsetting] at h
      -- the value is stored, if it is, and the assignment is over
      have hpop : ∀ o₁ : JSObject, o₁.setting = o.setting →
          Moves new o₁ { o₁ with setting := rest } := by
        refine fun o₁ heq => ⟨rfl, fun hr => ⟨hr.slots, hr.nslots⟩, fun _ => .inl rfl, ?_,
          .inl (Nat.le_refl _)⟩
        rintro n (hp | hn)
        · exact .inl (.inl hp)
        · refine .inl (.inr ?_)
          rw [heq, hsetting]
          exact List.mem_cons_of_mem _ hn
      have hstore : ∀ v n, slot = some n → Moves new o (o.setSlot n v) := by
        rintro v n rfl
        refine moves_setSlot fun _ => .inl (.inr ?_)
        rw [hsetting]
        exact List.mem_cons_self ..
      dsimp only at h
      cases result with
      | none =>
          cases h
          exact hpop o rfl
      | some v =>
          cases slot with
          | none =>
              cases h
              exact hpop o rfl
          | some n =>
              cases hscope : o.scope with
              | none =>
                  rw [hscope] at h
                  obtain rfl := Option.some.inj h
                  rw [← hscope]
                  exact hpop o rfl
              | some scope =>
                  rw [hscope] at h
                  obtain rfl := Option.some.inj h
                  rw [← hscope]
                  split_ifs
                  · exact (hstore v n rfl).trans (hpop (o.setSlot n v) rfl)
                  · exact hpop o rfl

end

/-! ### Operations -/

/-- The slot that the next property of the object's own gets. -/
def nextFree (o : JSObject) : ℕ := nextSlot o.clasp (o.scope.getD (jsNewScope o.clasp))

/-- A property that is not shared, of a name that has no slot in the object's own scope, is
entered there: the scope is not sealed, and memory is there. -/
def addsSlot (o : JSObject) (id : JSString) (attrs : PropertyAttrs) (r : SlotReplies) : Bool :=
  !attrs.shared && (o.scope.bind fun scope => keptSlot scope id).isNone &&
    decide (o.property? id ≠ some ⟨none, attrs⟩) && (o.scope.isSome || r.scope) && r.node &&
    !o.scope.any JSScope.sealed

/-- The operation gives a new property a slot. -/
def adds (o : JSObject) : PropertyOp → Bool
  | .define id _ attrs r =>
      o.addsSlot id { attrs with shared := o.clasp.shareAllProperties || attrs.shared } r
  | .set id _ proto r =>
      (o.property? id).isNone && !(proto.any fun q => q.readonly || q.shared) &&
        o.addsSlot id (shadowAttrs o.clasp proto) r
  | _ => false

/-- The operation clears the object's own scope. -/
def clears (o : JSObject) : PropertyOp → Bool
  | .clear => o.scope.isSome
  | _ => false

/-- The slots an operation takes: the next one for a new property, and all behind the
reserved ones to clear them. -/
def Takes (o : JSObject) (op : PropertyOp) (n : ℕ) : Prop :=
  o.adds op = true ∧ n = o.nextFree ∨ o.clears op = true ∧ o.clasp.slotFree ≤ n

section

variable {o o' : JSObject} {op : PropertyOp}

/-- `js_GetMutableScope` gives the scope whose next slot is the object's. -/
theorem jsGetMutableScope_eq {mem : Bool} {scope : JSScope}
    (h : o.jsGetMutableScope mem = some scope) :
    (o.scope.isSome || mem) = true ∧ scope = o.scope.getD (jsNewScope o.clasp) ∧
      o.scope.any JSScope.sealed = scope.sealed ∧
      ∀ id, (o.scope.bind fun scope => keptSlot scope id) = keptSlot scope id ∧
        o.property? id = scope.props id := by
  rw [jsGetMutableScope] at h
  cases hs : o.scope with
  | some own =>
      rw [hs] at h
      obtain rfl : own = scope := Option.some.inj h
      refine ⟨rfl, rfl, rfl, fun id => ⟨rfl, ?_⟩⟩
      rw [property?, hs]
      rfl
  | none =>
      rw [hs] at h
      cases mem with
      | false => cases h
      | true =>
          obtain rfl := Option.some.inj h
          refine ⟨rfl, rfl, rfl, fun id => ⟨rfl, ?_⟩⟩
          rw [property?, hs]
          rfl

/-- What `js_AddScopeProperty` does to an object that gets a scope for it. -/
theorem moves_add {id : JSString} {attrs : PropertyAttrs} {r : SlotReplies} {scope scope' : JSScope}
    {o₁ : JSObject} {result : Option JSScopeProperty}
    (hscope : o.jsGetMutableScope r.scope = some scope)
    (hadd : jsAddScopeProperty o scope id attrs r = (o₁, scope', result)) (new : ℕ → Prop)
    (hnew : o.addsSlot id attrs r = true → new o.nextFree) :
    Moves new o (o₁.setScope scope') ∧
      ∀ prop, result = some prop → (o₁.setScope scope').property? id = some prop := by
  obtain ⟨hmem, hown, hany, hid⟩ := jsGetMutableScope_eq hscope
  have hmoves := moves_addScopeProperty new hadd fun hsealed hshared hnone hother hnode => by
    have hslot := hnew (by simp [addsSlot, hany, hsealed, hshared, hid, hnone, hother, hmem, hnode])
    rwa [nextFree, ← hown] at hslot
  exact ⟨(moves_getMutableScope hscope).trans hmoves.1, hmoves.2⟩

/-- `js_DefineNativeProperty`. -/
theorem moves_defineProperty {id : JSString} {v : JSVal} {attrs : PropertyAttrs} {r : SlotReplies} :
    Moves (o.Takes (.define id v attrs r)) o (o.jsDefineProperty id v attrs r) := by
  unfold jsDefineProperty
  cases hscope : o.jsGetMutableScope r.scope with
  | none => exact .refl
  | some scope =>
      dsimp only
      generalize hadd : jsAddScopeProperty o scope id
        { attrs with shared := o.clasp.shareAllProperties || attrs.shared } r = a
      obtain ⟨o₁, scope', result⟩ := a
      obtain ⟨hmoves, hprop⟩ := moves_add hscope hadd
        (o.Takes (.define id v attrs r)) fun hadds => .inl ⟨hadds, rfl⟩
      cases result with
      | none => exact hmoves
      | some prop =>
          dsimp only
          cases hvalid : validSlot scope' prop with
          | none => exact hmoves
          | some slot =>
              refine hmoves.trans (moves_setSlot (o := o₁.setScope scope') fun _ => .inl ?_)
              exact .inl ⟨id, prop, hprop prop rfl, (validSlot_eq hvalid).1⟩

/-- `js_SetProperty`. -/
theorem moves_setProperty {id : JSString} {v : JSVal} {proto : Option ProtoProperty}
    {r : SlotReplies} : Moves (o.Takes (.set id v proto r)) o (o.jsSetProperty id v proto r) := by
  unfold jsSetProperty
  cases hown : o.property? id with
  | some prop =>
      dsimp only
      split_ifs
      · exact .refl
      · exact moves_setValue hown
  | none =>
      dsimp only
      split_ifs with hproto
      · exact .refl
      · rw [Bool.or_eq_true] at hproto
        have hadds : o.addsSlot id (shadowAttrs o.clasp proto) r = true →
            o.adds (.set id v proto r) = true := by
          intro hadds
          rw [adds, hown, hadds, Bool.eq_false_iff.2 (not_or.1 hproto).1]
          rfl
        cases hscope : o.jsGetMutableScope r.scope with
        | none => exact .refl
        | some scope =>
            dsimp only
            generalize hadd : jsAddScopeProperty o scope id (shadowAttrs o.clasp proto) r = a
            obtain ⟨o₁, scope', result⟩ := a
            obtain ⟨hmoves, hprop⟩ := moves_add hscope hadd
              (o.Takes (.set id v proto r)) fun hnew => .inl ⟨hadds hnew, rfl⟩
            cases result with
            | none => exact hmoves
            | some prop =>
                have hprop := hprop prop rfl
                dsimp only
                cases hvalid : validSlot scope' prop with
                | none => exact hmoves.trans (moves_setValue hprop)
                | some slot =>
                    -- `undefined` is stored first, and then the value
                    have hset : Moves (o.Takes (.set id v proto r)) (o₁.setScope scope')
                        ((o₁.setScope scope').setSlot slot .void) :=
                      moves_setSlot fun _ =>
                        .inl (.inl ⟨id, prop, hprop, (validSlot_eq hvalid).1⟩)
                    have hprop' : ((o₁.setScope scope').setSlot slot .void).property? id =
                        some prop := hprop
                    exact (hmoves.trans hset).trans (moves_setValue hprop')

/-- `js_DeleteProperty`. -/
theorem moves_deleteProperty {new : ℕ → Prop} {id : JSString} {r : SlotReplies} :
    Moves new o (o.jsDeleteProperty id r) := by
  unfold jsDeleteProperty
  cases hscope : o.scope with
  | none => exact .refl
  | some scope =>
      have hsame : o.setScope scope = o := by rw [setScope, ← hscope]
      dsimp only
      cases hprop : scope.props id with
      | none => exact .refl
      | some prop =>
          dsimp only
          split_ifs
          · exact .refl
          · have hmoves := moves_removeScopeProperty new o (r := r) hprop
            rwa [hsame] at hmoves

/-- `js_SetProtoOrParent`: neither slot is the private one. -/
theorem moves_setProtoOrParent {new : ℕ → Prop} {slot : ℕ} {v : JSVal} {own mem : Bool}
    (h : slot ≠ JSSLOT_PRIVATE) : Moves new o (o.jsSetProtoOrParent slot v own mem) := by
  have hset : ∀ o₁ : JSObject, Moves new o₁ (o₁.setSlot slot v) :=
    fun o₁ => moves_setSlot fun heq => absurd heq h
  unfold jsSetProtoOrParent
  split_ifs
  · cases hscope : o.jsGetMutableScope mem with
    | none => exact .refl
    | some scope => exact (moves_getMutableScope hscope).trans (hset _)
  · exact hset o

/-- `JS_SealObject`. -/
theorem moves_sealObject {new : ℕ → Prop} {mem : Bool} : Moves new o (o.jsSealObject mem) := by
  unfold jsSealObject
  cases hscope : o.jsGetMutableScope mem with
  | none => exact .refl
  | some scope => exact (moves_getMutableScope hscope).trans moves_seal

/-- **What an operation moves.** -/
theorem exec_moves (h : o.exec op = some o') : Moves (o.Takes op) o o' := by
  cases op with
  | setterReturned result => exact moves_setterReturned h
  | define id v attrs r =>
      obtain rfl := Option.some.inj h
      exact moves_defineProperty
  | set id v proto r =>
      obtain rfl := Option.some.inj h
      exact moves_setProperty
  | delete id r =>
      obtain rfl := Option.some.inj h
      exact moves_deleteProperty
  | setProto v own mem =>
      obtain rfl := Option.some.inj h
      exact moves_setProtoOrParent (by decide)
  | setParent v =>
      obtain rfl := Option.some.inj h
      exact moves_setProtoOrParent (by decide)
  | clear =>
      obtain rfl := Option.some.inj h
      exact moves_clear fun n hscope hn => .inr ⟨hscope, hn⟩
  | sealObject mem =>
      obtain rfl := Option.some.inj h
      exact moves_sealObject

/-- Where the private slot is the next one, the new property gets it. -/
theorem jsAddScopeProperty_private {id : JSString} {attrs : PropertyAttrs} {r : SlotReplies}
    (hroom : o.HasRoom) (hadds : o.addsSlot id attrs r = true)
    (hnext : o.nextFree = JSSLOT_PRIVATE) :
    ∃ scope scope' prop, o.jsGetMutableScope r.scope = some scope ∧
      jsAddScopeProperty o scope id attrs r = (o, scope', some prop) ∧
      scope'.props id = some prop ∧ prop.slot = some JSSLOT_PRIVATE ∧
      validSlot scope' prop = some JSSLOT_PRIVATE := by
  simp only [addsSlot, Bool.and_eq_true, Bool.not_eq_true', Option.isNone_iff_eq_none,
    decide_eq_true_eq] at hadds
  obtain ⟨⟨⟨⟨⟨hshared, hkept⟩, hother⟩, hmem⟩, hnode⟩, hsealed⟩ := hadds
  obtain ⟨scope, hscope⟩ : ∃ scope, o.jsGetMutableScope r.scope = some scope := by
    rw [jsGetMutableScope]
    cases hs : o.scope with
    | some own => exact ⟨own, rfl⟩
    | none =>
        rw [hs] at hmem
        exact ⟨_, if_pos hmem⟩
  obtain ⟨-, hown, hany, hid⟩ := jsGetMutableScope_eq hscope
  rw [hany] at hsealed
  rw [(hid id).1] at hkept
  rw [(hid id).2] at hother
  rw [nextFree, ← hown] at hnext
  have hspace : ¬scope.nslots ≤ JSSLOT_PRIVATE := by
    have hmoves : Moves (fun _ => False) o (o.setScope scope) := moves_getMutableScope hscope
    have hle := (hmoves.room hroom).nslots scope rfl
    exact Nat.not_le.2 (Nat.lt_of_lt_of_le (by decide) hle)
  refine ⟨scope, enter { scope with freeslot := JSSLOT_PRIVATE + 1 } id _,
    ⟨some JSSLOT_PRIVATE, { attrs with setter := r.watch.or attrs.setter }⟩, hscope, ?_,
    Function.update_self .., rfl, ?_⟩
  · rw [jsAddScopeProperty]
    simp only [hsealed, hshared, hkept, Bool.false_eq_true, if_false]
    rw [if_neg hother, placeProperty]
    simp only [Bool.false_eq_true, if_false, jsAllocSlot, hnext, if_neg hspace, hnode, if_true,
      Option.map_some]
    rw [hsealed]
  · exact Option.filter_eq_some_iff.2 ⟨rfl, decide_eq_true (Nat.lt_succ_self _)⟩

/-- **Where the private slot is taken, it holds a value** afterwards. -/
theorem exec_private (h : o.exec op = some o') (hroom : o.HasRoom)
    (htakes : o.Takes op JSSLOT_PRIVATE) :
    ∃ v, o'.slots[JSSLOT_PRIVATE]? = some (.value v) := by
  have hlt : JSSLOT_PRIVATE < o.slots.length := Nat.lt_of_lt_of_le (by decide) hroom.slots
  rcases htakes with ⟨hadds, hnext⟩ | ⟨hclears, hle⟩
  · cases op with
    | define id v attrs r =>
        obtain rfl := Option.some.inj h
        obtain ⟨scope, scope', prop, hscope, hadd, -, -, hvalid⟩ :=
          jsAddScopeProperty_private hroom hadds hnext.symm
        have hdef : o.jsDefineProperty id v attrs r =
            (o.setSlot JSSLOT_PRIVATE v).setScope scope' := by
          simp only [jsDefineProperty, hscope, hadd, hvalid]
        rw [hdef]
        exact ⟨v, List.getElem?_set_self hlt⟩
    | set id v proto r =>
        obtain rfl := Option.some.inj h
        simp only [adds, Bool.and_eq_true, Option.isNone_iff_eq_none, Bool.not_eq_true'] at hadds
        obtain ⟨⟨hown, hproto⟩, hadds⟩ := hadds
        obtain ⟨scope, scope', prop, hscope, hadd, -, hslot, hvalid⟩ :=
          jsAddScopeProperty_private hroom hadds hnext.symm
        have hsealed : o.scope.any JSScope.sealed = false := by
          simp only [addsSlot, Bool.and_eq_true, Bool.not_eq_true'] at hadds
          exact hadds.2
        have hset : o.jsSetProperty id v proto r =
            ((o.setSlot JSSLOT_PRIVATE .void).setScope scope').setValue prop v := by
          simp only [jsSetProperty, hown, hproto, hsealed, hscope, hadd, hvalid]
          rfl
        rw [hset, setValue, hslot]
        -- `undefined` is there until the setter has run
        dsimp only
        split_ifs
        · refine ⟨v, List.getElem?_set_self ?_⟩
          show JSSLOT_PRIVATE < (o.slots.set JSSLOT_PRIVATE (.value .void)).length
          rwa [List.length_set]
        · exact ⟨.void, List.getElem?_set_self hlt⟩
    | _ => cases hadds
  · cases op with
    | clear =>
        obtain rfl := Option.some.inj h
        show ∃ v, o.jsClear.slots[JSSLOT_PRIVATE]? = some (.value v)
        unfold jsClear
        cases hscope : o.scope with
        | none =>
            rw [clears, hscope] at hclears
            cases hclears
        | some scope =>
            have hn : JSSLOT_PRIVATE < scope.nslots :=
              Nat.lt_of_lt_of_le (by decide) (hroom.nslots scope hscope)
            refine ⟨.void, ?_⟩
            dsimp only
            rw [List.getElem?_mapIdx, List.getElem?_eq_getElem hlt, Option.map_some,
              if_pos ⟨hle, hn⟩]
    | _ => cases hclears

/-! ### Runs -/

/-- The private data is what was stored, and no property has its slot, so that the next
`JS_GetPrivate` has the pointer of the suite. -/
structure KeepsPrivate (p : ℕ) (o : JSObject) : Prop where
  data : o.jsGetPrivate = some (.stored p)
  properties : ∀ id prop, o.property? id = some prop → prop.slot ≠ some JSSLOT_PRIVATE

/-- The operation does not take the private slot. -/
def SparesPrivate (o : JSObject) (op : PropertyOp) : Prop := ¬o.Takes op JSSLOT_PRIVATE

/-- Where the private slot is used for anything else, the private data is gone. -/
structure Sound (o : JSObject) : Prop where
  room : o.HasRoom
  overwritten : o.Occupied JSSLOT_PRIVATE → ∀ p, o.slots[JSSLOT_PRIVATE]? ≠ some (.data p)

/-- `JS_GetPrivate` has the pointer that is in the fourth slot. -/
theorem jsGetPrivate_stored {p : ℕ} :
    o.jsGetPrivate = some (.stored p) ↔ o.slots[JSSLOT_PRIVATE]? = some (.data p) := by
  unfold jsGetPrivate
  rcases o.slots[JSSLOT_PRIVATE]? with _ | (v | q)
  · simp
  · cases v with
    | int i => by_cases hi : i = 0 <;> simp [hi]
    | _ => simp
  · simp

/-- The private slot is used by nothing else. -/
theorem Sound.not_occupied {p : ℕ} (h : o.Sound) (hp : o.KeepsPrivate p) :
    ¬o.Occupied JSSLOT_PRIVATE :=
  fun hocc => h.overwritten hocc p (jsGetPrivate_stored.1 hp.data)

/-- **One operation** keeps the slots in order. -/
theorem step_sound (h : o.Sound) (hst : Step o op o') : o'.Sound := by
  have hmoves := exec_moves hst
  refine ⟨hmoves.room h.room, fun hocc p hp => ?_⟩
  rcases hmoves.word h.room with hsame | ⟨-, v, hv⟩
  · rcases hmoves.occupied _ hocc with hold | hnew
    · exact h.overwritten hold p (hsame ▸ hp)
    · obtain ⟨v, hv⟩ := exec_private hst h.room hnew
      rw [hv] at hp
      cases hp
  · rw [hv] at hp
    cases hp

/-- **A step keeps the private data** exactly if it does not give its slot away. -/
theorem step_keepsPrivate_iff {p : ℕ} (h : o.Sound) (hp : o.KeepsPrivate p) (hst : Step o op o') :
    o'.KeepsPrivate p ↔ o.SparesPrivate op := by
  constructor
  · intro hk htakes
    obtain ⟨v, hv⟩ := exec_private hst h.room htakes
    have hdata := jsGetPrivate_stored.1 hk.data
    rw [hv] at hdata
    cases hdata
  · intro hspares
    have hmoves := exec_moves hst
    have hfree := h.not_occupied hp
    refine ⟨?_, fun id prop hprop hslot => ?_⟩
    · rcases hmoves.word h.room with hsame | ⟨hocc | hnew, -⟩
      · rw [jsGetPrivate_stored, hsame]
        exact jsGetPrivate_stored.1 hp.data
      · exact absurd hocc hfree
      · exact absurd hnew hspares
    · rcases hmoves.occupied _ (.inl ⟨id, prop, hprop, hslot⟩) with hocc | hnew
      · exact hfree hocc
      · exact hspares hnew

/-- An object as `js_NewObject` and `JS_SetPrivate` leave it. -/
theorem jsNewObject_sound (clasp : JSClass) (shares : Bool) (proto parent : JSVal)
    (classPtr p : ℕ) :
    ((jsNewObject clasp shares proto parent classPtr).jsSetPrivate p).Sound ∧
      ((jsNewObject clasp shares proto parent classPtr).jsSetPrivate p).KeepsPrivate p := by
  have hnone : ∀ id,
      ((jsNewObject clasp shares proto parent classPtr).jsSetPrivate p).property? id = none := by
    intro id
    cases shares <;> rfl
  refine ⟨⟨⟨Nat.le_refl 5, ?_⟩, ?_⟩, rfl, fun id prop hprop => ?_⟩
  · intro scope hscope
    cases shares with
    | true => cases hscope
    | false =>
        obtain rfl := Option.some.inj hscope
        exact Nat.le_refl _
  · rintro (⟨id, prop, hprop, -⟩ | hn)
    · rw [hnone] at hprop
      cases hprop
    · cases hn
  · rw [hnone] at hprop
    cases hprop

/-- **Private data is kept** by the runs, and by no others, in which no operation gives
its slot to a property. -/
theorem private_kept_iff (clasp : JSClass) (shares : Bool) (proto parent : JSVal)
    (classPtr p : ℕ) (ops : List PropertyOp) (o : JSObject) :
    Run (Guarded SparesPrivate Step)
        ((jsNewObject clasp shares proto parent classPtr).jsSetPrivate p) ops o ↔
      Run (Keeping (KeepsPrivate p) Step)
        ((jsNewObject clasp shares proto parent classPtr).jsSetPrivate p) ops o := by
  obtain ⟨hsound, hkeeps⟩ := jsNewObject_sound clasp shares proto parent classPtr p
  refine Transition.run_guarded_iff_keeping (J := Sound) ?_ ?_ hsound hkeeps
  · intro s op t hs hst
    exact step_sound hs hst
  · intro s op t hs hp hst
    exact step_keepsPrivate_iff hs hp hst

/-- The slots in use, and the free ones, are behind the private one. -/
structure Behind (o : JSObject) : Prop where
  hasPrivate : o.clasp.hasPrivate = true
  free : JSSLOT_PRIVATE < o.freeslot
  occupied : ∀ n, o.Occupied n → JSSLOT_PRIVATE < n

/-- The private slot lies below the next one. -/
theorem Behind.nextFree (h : o.Behind) : JSSLOT_PRIVATE < o.nextFree := by
  have hfree := h.free
  unfold JSObject.nextFree nextSlot
  unfold freeslot at hfree
  cases hs : o.scope with
  | none =>
      rw [hs] at hfree
      have hle : JSSLOT_PRIVATE < (jsNewScope o.clasp).freeslot := hfree
      simp only [Option.getD_none]
      split_ifs <;> omega
  | some scope =>
      rw [hs] at hfree
      have hle : JSSLOT_PRIVATE < scope.freeslot := hfree
      simp only [Option.getD_some]
      split_ifs <;> omega

/-- Once it does, it stays so. -/
theorem step_behind (h : o.Behind) (hst : Step o op o') : o'.Behind := by
  have hmoves := exec_moves hst
  have hslot : ∀ n, o.Occupied n ∨ o.Takes op n → JSSLOT_PRIVATE < n := by
    rintro n (hocc | ⟨-, rfl⟩ | ⟨-, hle⟩)
    · exact h.occupied n hocc
    · exact h.nextFree
    · exact Nat.lt_of_lt_of_le (JSClass.private_lt_slotFree h.hasPrivate) hle
  refine ⟨by rw [hmoves.clasp]; exact h.hasPrivate, ?_, fun n hn => hslot n (hmoves.occupied n hn)⟩
  rcases hmoves.free with hle | ⟨n, hn, hle⟩
  · exact Nat.lt_of_lt_of_le h.free hle
  · exact Nat.lt_of_lt_of_le (hslot n hn) hle

/-- **A class that asks for private data keeps it**, whatever a script does. -/
theorem private_kept {clasp : JSClass} (h : clasp.hasPrivate = true) {shares : Bool}
    {proto parent : JSVal} {classPtr p : ℕ} {ops : List PropertyOp}
    (hrun : Run Step ((jsNewObject clasp shares proto parent classPtr).jsSetPrivate p) ops o) :
    o.KeepsPrivate p := by
  obtain ⟨hsound, hkeeps⟩ := jsNewObject_sound clasp shares proto parent classPtr p
  have hbehind : ((jsNewObject clasp shares proto parent classPtr).jsSetPrivate p).Behind := by
    refine ⟨h, ?_, ?_⟩
    · cases shares <;> exact JSClass.private_lt_slotFree h
    · rintro n (⟨id, prop, hprop, -⟩ | hn)
      · cases shares <;> cases hprop
      · cases hn
  refine (hrun.invariant (P := fun o => o.Behind ∧ o.Sound ∧ o.KeepsPrivate p) ?_
    ⟨hbehind, hsound, hkeeps⟩).2.2
  rintro s op t ⟨hb, hs, hk⟩ hst
  have hspares : s.SparesPrivate op := by
    rintro (⟨-, hnext⟩ | ⟨-, hle⟩)
    · exact absurd hb.nextFree (by omega)
    · exact absurd (JSClass.private_lt_slotFree hb.hasPrivate) (by omega)
  exact ⟨step_behind hb hst, step_sound hs hst, (step_keepsPrivate_iff hs hk hst).2 hspares⟩

end

end JSObject

/-! ### Suites -/

open JSObject

/-- **A `JSUnit` object keeps its suite** in every state of a run exactly if no operation
of the run adds a property while the private slot is the next one: `jsunit_class` leaves
it free for the first property of the object's own, since it has no `JSCLASS_HAS_PRIVATE`.
Source: `jsunit_class` (lines 109-121) and `JSUnit_CT` (lines 186-195) of
`js/src/ext/jsunit.c`, `JSSLOT_FREE` (lines 135-146 of `js/src/jsobj.h`) and
`js_AllocSlot` (lines 2358-2392 of `js/src/jsobj.c`). -/
theorem suite_kept_iff (proto parent : JSVal) (classPtr suite : ℕ) (ops : List PropertyOp)
    (o : JSObject) :
    Run (Guarded SparesPrivate Step) (newJSUnit proto parent classPtr suite) ops o ↔
      Run (Keeping (KeepsPrivate suite) Step) (newJSUnit proto parent classPtr suite) ops o :=
  private_kept_iff jsunitClass true proto parent classPtr suite ops o

/-- **One property and the suite is lost**: `inst.x = 7`. -/
theorem suite_overwritten : ¬∀ proto parent classPtr suite ops o,
    Run Step (newJSUnit proto parent classPtr suite) ops o → o.KeepsPrivate suite := by
  intro hclaim
  have hrun : ∃ o, Run Step (newJSUnit .null .null 1000 2000)
      [.set [0x78] (.int 7) none ⟨true, true, true, none⟩] o := ⟨_, .single rfl⟩
  obtain ⟨o, hrun⟩ := hrun
  have hdata := (hclaim _ _ _ _ _ _ hrun).data
  obtain ⟨⟩ | ⟨hst, ⟨⟩⟩ := hrun
  obtain rfl := Option.some.inj hst
  revert hdata
  decide

end Slots
end ProntoScript
