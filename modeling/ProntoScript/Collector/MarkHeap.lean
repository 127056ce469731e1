/-
# The mark phase of the collector

`MARK_GC_THING` and `DeutschSchorrWaite` (`js/src/jsgc.c`).  Marking follows the slots of
objects by recursion, as long as there is stack.  Where `JS_CHECK_STACK_SIZE` says that
there is none left, what the object leads to is marked with no recursion from object to
object: on the way down the slot that was followed is made to hold the object that was come
from, tagged as a boolean, and on the way up the slot is found by that tag and gets its own
value back.  Where a scope is the object's own, `dswIndex` remembers about where the slot is.

Things are known by their addresses, which are signed words as `jsval`s are: an address in
the upper half of the memory is a negative one.  `hook` is what `ops->mark` does, the
things it calls `js_MarkGCThing` for and what it answers.  An atom counts as a thing of kind
`other`, marked by `ATOM_MARK`.

Whether there is stack left is up to the outside, and may be answered anew each time
(`check`).
-/

import ProntoScript.Foundation.Marking
import Mathlib.Algebra.Group.Int.Defs
import Mathlib.Algebra.Group.Nat.Defs
import Mathlib.Order.Lattice.Nat

namespace ProntoScript

/-! ### Words -/

/-- `JSVAL_IS_OBJECT`. Source: line 69 of `js/src/jsapi.h`. -/
def jsvalIsObject (v : ℤ) : Bool := decide (v % 8 = 0)

/-- `JSVAL_IS_BOOLEAN`. Source: line 74 of `js/src/jsapi.h`. -/
def jsvalIsBoolean (v : ℤ) : Bool := decide (v % 8 = 6)

/-- `JSVAL_IS_GCTHING`. Source: line 80 of `js/src/jsapi.h`. -/
def jsvalIsGCThing (v : ℤ) : Bool := decide (v % 2 = 0) && !jsvalIsBoolean v

/-- `JSVAL_TO_GCTHING`, which is `JSVAL_CLRTAG`. Source: line 81 of `js/src/jsapi.h`. -/
def jsvalToGCThing (v : ℤ) : ℤ := v - v % 8

/-- `JSVAL_SETTAG(v, JSVAL_BOOLEAN)` of a word without a tag. Source: `JSVAL_SETTAG`,
line 64 of `js/src/jsapi.h`. -/
def jsvalReversed (v : ℤ) : ℤ := v + 6

/-- `JSVAL_TRUE`. -/
def jsvalTrue : ℤ := 14

/-- `JSVAL_EMPTY`. Source: line 1298 of `js/src/jsgc.c`. -/
def jsvalEmpty : ℤ := 16

/-! ### Things -/

/-- What does not change about an object while the collector marks. -/
structure GCObject where
  /-- `slots - 1`, where the vector of the slots starts. -/
  vector : ℤ
  /-- `ops->mark`. -/
  hook : Option (List ℤ × ℕ)
  /-- `map->freeslot` and `map->nslots`. -/
  freeslot : ℕ
  nslots : ℕ
  /-- `OBJ_IS_NATIVE(obj) && OBJ_SCOPE(obj)->object == obj`. -/
  ownsScope : Bool

/-- What a thing is by its type flags: an object, a string with the base it depends on, or
a thing whose marker marks some others, if any. -/
inductive GCKind
  | object (o : GCObject)
  | string (base : Option ℤ)
  | other (kids : List ℤ)

/-- The things, the slots of the objects (of a newborn they are `NULL`), `GCF_MARK`, and
`dswIndex` by the object that owns the scope. -/
structure MarkHeap where
  things : List ℤ
  kind : ℤ → Option GCKind
  slots : ℤ → Option (List ℤ)
  marks : ℤ → Bool
  dswIndex : ℤ → ℕ

/-- The C stack, as `JS_CHECK_STACK_SIZE` sees it. Source: line 796 of `js/src/jscntxt.h`. -/
abbrev StackCheck := MarkHeap → Bool

namespace MarkHeap

/-- `*flagp |= GCF_MARK`. -/
def mark (h : MarkHeap) (x : ℤ) : MarkHeap :=
  { h with marks := fun y => if y = x then true else h.marks y }

/-- `obj->slots[i] = v`. -/
def writeSlot (h : MarkHeap) (x : ℤ) (i : ℕ) (v : ℤ) : MarkHeap :=
  { h with slots := fun y => if y = x then (h.slots y).map fun vs => vs.set i v else h.slots y }

/-- `scope->dswIndex = i`. -/
def setDSWIndex (h : MarkHeap) (x : ℤ) (i : ℕ) : MarkHeap :=
  { h with dswIndex := fun y => if y = x then i else h.dswIndex y }

/-- `UNMARKED_GC_THING_FLAGS` finds something to mark. Source: lines 1035-1055 of
`js/src/jsgc.c`. -/
def isUnmarked (h : MarkHeap) (x : ℤ) : Bool := decide (x ≠ 0) && !h.marks x

/-- What a slot has for `NEXT_UNMARKED_GC_THING`. -/
def unmarkedThing (h : MarkHeap) (v : ℤ) : Option ℤ :=
  if jsvalIsGCThing v && h.isUnmarked (jsvalToGCThing v) then some (jsvalToGCThing v) else none

/-- `NEXT_UNMARKED_GC_THING`, over the `n` slots from `vp` on. Source: lines 1057-1079 of
`js/src/jsgc.c`. -/
def nextUnmarkedGCThing (h : MarkHeap) (vs : List ℤ) : ℕ → ℕ → Option (ℕ × ℤ)
  | _, 0 => none
  | vp, n + 1 =>
      match vs[vp]? with
      | none => none
      | some v =>
          if (h.unmarkedThing v).isSome then some (vp, v)
          else h.nextUnmarkedGCThing vs (vp + 1) n

/-! ### `MARK_GC_THING` -/

section

variable (gcMark : MarkHeap → ℤ → Option MarkHeap)

/-- `js_MarkGCThing`, by `MARK_GC_THING`. Source: lines 1443-1452 of `js/src/jsgc.c`. -/
def markIfUnmarked (h : MarkHeap) (x : ℤ) : Option MarkHeap :=
  if h.isUnmarked x then gcMark h x else some h

/-- "Mark slots if they are small enough to be GC-allocated": `GC_NBYTES_MAX` is that of 20
words. -/
def markVector (h : MarkHeap) (o : GCObject) (vs : List ℤ) : Option MarkHeap :=
  if vs.length + 1 ≤ 20 then h.markIfUnmarked gcMark o.vector else some h

/-- What `ops->mark` marks, and how many slots are to be looked at then. -/
def callMarker (h : MarkHeap) (o : GCObject) : Option (MarkHeap × ℕ) :=
  match o.hook with
  | some (kids, n) => (kids.foldlM (markIfUnmarked gcMark) h).map fun h => (h, n)
  | none => some (h, min o.freeslot o.nslots)

/-- The loop of `MARK_GC_THING`: `thing` was found in a slot, and the slots `vs` are left.
What was found is marked when the next thing is, or at the end, where the tail recursion
has been eliminated. -/
def markSlots : MarkHeap → ℤ → List ℤ → Option MarkHeap
  | h, thing, [] => gcMark h thing
  | h, thing, v :: vs =>
      match (h.unmarkedThing v).filter (· ≠ thing) with
      | none => markSlots h thing vs
      | some next => do
          let h ← gcMark h thing
          markSlots h next vs

/-- From the first unmarked thing in the slots on. -/
def markFirst : MarkHeap → List ℤ → Option MarkHeap
  | h, [] => some h
  | h, v :: vs =>
      match h.unmarkedThing v with
      | none => markFirst h vs
      | some thing => markSlots gcMark h thing vs

/-! ### `DeutschSchorrWaite` -/

/-- `EncodeDSWIndex`.  A `jsdouble` divides two `uint32`s exactly enough for what is cut
off: the quotient is no whole number's neighbour unless it is that number. Source:
lines 1308-1324 of `js/src/jsgc.c`. -/
def encodeDSWIndex (index nslots : ℕ) : ℕ :=
  if nslots > 2 ^ 16 then index * 2 ^ 16 / nslots else index

/-- `DecodeDSWIndex`. Source: lines 1326-1341 of `js/src/jsgc.c`. -/
def decodeDSWIndex (dswIndex nslots : ℕ) : ℕ :=
  if nslots > 2 ^ 16 then dswIndex * nslots / 2 ^ 16 else dswIndex

/-- The locals of `DeutschSchorrWaite`. -/
structure DSW where
  heap : MarkHeap
  parent : ℤ
  top : ℤ
  vp : ℕ
  stop : ℕ

/-- `down`: the vector of the slots and what `ops->mark` marks, and then the object. -/
def goDown (h : MarkHeap) (obj top : ℤ) : Option DSW :=
  match h.kind obj, h.slots obj with
  | some (.object o), some vs => do
      let h ← h.markVector gcMark o vs
      let (h, n) ← h.callMarker gcMark o
      if n ≤ vs.length then some ⟨h.mark obj, obj, top, 0, n⟩ else none
  | _, _ => none

/-- The search for the reversed pointer, in the `n` slots from `vp` on. -/
def findReversed (vs : List ℤ) : ℕ → ℕ → Option (ℕ × ℤ)
  | _, 0 => none
  | vp, n + 1 =>
      match vs[vp]? with
      | none => none
      | some v =>
          if v ≤ jsvalTrue || !jsvalIsBoolean v then findReversed vs (vp + 1) n
          else some (vp, v)

/-- `*vp = JSVAL_SETTAG(top, JSVAL_BOOLEAN)`, and where that is. -/
def DSW.linkSlot (d : DSW) (o : GCObject) (nslots vp : ℕ) : MarkHeap :=
  let h := d.heap.writeSlot d.parent vp (jsvalReversed d.top)
  if o.ownsScope then h.setDSWIndex d.parent (encodeDSWIndex vp nslots) else h

/-- Down into the object in slot `vp`. -/
def reverse (d : DSW) (o : GCObject) (nslots vp : ℕ) (v : ℤ) : Option DSW :=
  goDown gcMark (d.linkSlot o nslots vp) (jsvalToGCThing v) d.parent

/-- "Time to go back up the spanning tree." -/
def goUp (h : MarkHeap) (top parent : ℤ) : Option DSW :=
  match h.kind top, h.slots top with
  | some (.object o), some vs => do
      let start := if o.ownsScope then decodeDSWIndex (h.dswIndex top) vs.length else 0
      let (vp, v) ← findReversed vs start vs.length
      some ⟨h.writeSlot top vp parent, top, jsvalToGCThing v, vp + 1, vs.length⟩
  | _, _ => none

/-- One round of the loops.  The answer is where it goes on, or the heap it ends with. -/
def dswStep (d : DSW) : Option (DSW ⊕ MarkHeap) :=
  match d.heap.kind d.parent, d.heap.slots d.parent with
  | some (.object o), some vs =>
      match d.heap.nextUnmarkedGCThing vs d.vp (d.stop - d.vp) with
      | some (vp, v) =>
          if jsvalIsObject v then (reverse gcMark d o vs.length vp v).map .inl
          else (gcMark d.heap (jsvalToGCThing v)).map fun h => .inl { d with heap := h, vp := vp }
      | none =>
          let h := if o.ownsScope then d.heap.setDSWIndex d.parent 0 else d.heap
          if d.top = jsvalEmpty then some (.inr h) else (goUp h d.top d.parent).map .inl
  | _, _ => none

/-- The loops of `DeutschSchorrWaite`. -/
def dswLoop : ℕ → DSW → Option MarkHeap
  | 0, _ => none
  | n + 1, d => do
      match ← dswStep gcMark d with
      | .inl d => dswLoop n d
      | .inr h => some h

/-- `DeutschSchorrWaite`. Source: lines 1343-1441 of `js/src/jsgc.c`. -/
def deutschSchorrWaite (rounds : ℕ) (h : MarkHeap) (x : ℤ) : Option MarkHeap := do
  let d ← goDown gcMark h x jsvalEmpty
  dswLoop gcMark rounds d

/-- `MARK_GC_THING` of an object that has just been marked. -/
def markObject (check : StackCheck) (rounds : ℕ) (h : MarkHeap) (x : ℤ) (o : GCObject) :
    Option MarkHeap :=
  match h.slots x with
  | none => some h
  | some vs =>
      if check h then do
        let h ← h.markVector gcMark o vs
        let (h, n) ← h.callMarker gcMark o
        if n ≤ vs.length then h.markFirst gcMark (vs.take n) else none
      else deutschSchorrWaite gcMark rounds h x

end

/-- `MARK_GC_THING`, with how much deeper it may recurse. Source: lines 1084-1287 of
`js/src/jsgc.c`. -/
def markGCThing (check : StackCheck) : ℕ → MarkHeap → ℤ → Option MarkHeap
  | 0, _, _ => none
  | fuel + 1, h, x =>
      match h.kind x with
      | none => none
      | some kind =>
          if h.marks x then some h
          else
            match kind with
            | .object o => (h.mark x).markObject (markGCThing check fuel) check (2 * fuel + 1) x o
            | .string none => some (h.mark x)
            | .string (some base) => (h.mark x).markIfUnmarked (markGCThing check fuel) base
            | .other kids => kids.foldlM (markIfUnmarked (markGCThing check fuel)) (h.mark x)

/-- `js_MarkGCThing`, for the roots one after the other.  It never recurses deeper than
there are things. Source: lines 1443-1452 of `js/src/jsgc.c`. -/
def markRoots (check : StackCheck) (h : MarkHeap) (roots : List ℤ) : Option MarkHeap :=
  roots.foldlM (markIfUnmarked (markGCThing check (h.things.length + 1))) h

end MarkHeap

end ProntoScript
