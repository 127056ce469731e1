/-
# Slots

Where the engine keeps the properties of an object (`js/src/jsobj.c` and
`js/src/jsscope.c`).  An object has a vector of slots: its prototype, its parent and
its class, then the private data if the class asks for it, then the reserved slots of
the class, then its own properties.  As long as it has none it shares the scope of its
prototype; with the first one it gets a scope of its own, whose first free slot is
`JSSLOT_FREE` of the class.

`jsunit_class` (`js/src/ext/jsunit.c`, lines 109-121) does not ask for private data, so
its instances have their first property where `JS_SetPrivate` put the suite.

The order of the properties, which only an enumeration sees, is left out.
-/

import Mathlib.Logic.Function.Basic
import ProntoScript.Engine.Value
import ProntoScript.Foundation.Transition

namespace ProntoScript
namespace Slots

/-! ### Classes and objects -/

/-- The slot of the prototype.  Source: `js/src/jsobj.h`, lines 135-146, as for the next
ones. -/
def JSSLOT_PROTO : ℕ := 0
/-- The slot of the scope that the object was made in. -/
def JSSLOT_PARENT : ℕ := 1
/-- The slot of the class, a pointer tagged as an int. -/
def JSSLOT_CLASS : ℕ := 2
/-- The slot of the private data, if the class asks for it, else of the first property. -/
def JSSLOT_PRIVATE : ℕ := 3
/-- The slots that a new object has. -/
def JS_INITIAL_NSLOTS : ℕ := 5

/-- The flags of a `JSClass` that bear on slots, and what its `reserveSlots` returns, 0
if it has none. -/
structure JSClass where
  hasPrivate : Bool
  reservedSlots : ℕ
  shareAllProperties : Bool
  reserveSlots : ℕ
deriving DecidableEq, Repr

/-- `JSSLOT_START`. -/
def JSClass.slotStart (clasp : JSClass) : ℕ :=
  if clasp.hasPrivate then JSSLOT_PRIVATE + 1 else JSSLOT_CLASS + 1

/-- `JSSLOT_FREE`. -/
def JSClass.slotFree (clasp : JSClass) : ℕ := clasp.slotStart + clasp.reservedSlots

/-- `jsunit_class`. -/
def jsunitClass : JSClass := ⟨false, 0, false, 0⟩

/-- The word in a slot: a value, or a pointer that `PRIVATE_TO_JSVAL` tagged as an int. -/
inductive SlotWord
  | value (v : JSVal)
  | data (p : ℕ)
deriving DecidableEq, Repr

/-- The attributes of a property, its getter and its setter, none for the stubs, and its
short id. -/
structure PropertyAttrs where
  enumerate : Bool
  readonly : Bool
  permanent : Bool
  shared : Bool
  getter : Option ℕ
  setter : Option ℕ
  shortid : Option ℤ
deriving DecidableEq, Repr

/-- `JSScopeProperty`; no slot stands for `SPROP_INVALID_SLOT`. Source: lines 256-267 of
`js/src/jsscope.h`. -/
structure JSScopeProperty where
  slot : Option ℕ
  attrs : PropertyAttrs
deriving DecidableEq, Repr

/-- `JSScope`, with the `freeslot` and the `nslots` of its map. Source: lines 201-223 of
`js/src/jsscope.h`. -/
structure JSScope where
  freeslot : ℕ
  nslots : ℕ
  sealed : Bool
  props : JSString → Option JSScopeProperty

/-- A `JSObject`: its own scope, none while it shares that of its prototype, and the slots
of the assignments whose setters are running, the latest first. Source: lines 130-133 of
`js/src/jsobj.h`. -/
structure JSObject where
  clasp : JSClass
  slots : List SlotWord
  scope : Option JSScope
  setting : List (Option ℕ)

/-- What `js_LookupProperty` finds on the prototype chain. Source: lines 2770-2775 of
`js/src/jsobj.c`. -/
structure ProtoProperty where
  readonly : Bool
  shared : Bool
  getter : Option ℕ
  setter : Option ℕ
  shortid : Option ℤ
deriving DecidableEq, Repr

/-- What an operation finds: memory for a scope, for a vector of slots, for the tables and
the property tree, and the setter that calls the watchpoint of the name, if it has one. -/
structure SlotReplies where
  scope : Bool
  slots : Bool
  node : Bool
  watch : Option ℕ
deriving DecidableEq, Repr

/-- `js_NewScope`. Source: lines 140-175 of `js/src/jsscope.c`. -/
def jsNewScope (clasp : JSClass) : JSScope :=
  ⟨clasp.slotFree, JS_INITIAL_NSLOTS, false, fun _ => none⟩

/-- `AllocSlots`: a vector with `n` slots, `undefined` behind the old ones. Source:
lines 2016-2062 of `js/src/jsobj.c`. -/
def allocSlots (slots : List SlotWord) (n : ℕ) : List SlotWord :=
  slots.take n ++ List.replicate (n - slots.length) (.value .void)

/-- `js_NewObject`: whether the object shares the scope of its prototype is decided by the
two classes. Source: lines 2080-2194 of `js/src/jsobj.c`. -/
def jsNewObject (clasp : JSClass) (shares : Bool) (proto parent : JSVal) (classPtr : ℕ) :
    JSObject :=
  ⟨clasp, [.value proto, .value parent, .data classPtr, .value .void, .value .void],
    if shares then none else some (jsNewScope clasp), []⟩

/-- A pointer from `JS_GetPrivate`: one that was stored, or an int taken for one. -/
inductive Pointer
  | stored (p : ℕ)
  | madeOf (i : ℤ)
deriving DecidableEq, Repr

namespace JSObject

/-- `JS_SetPrivate`. Source: lines 2172-2178 of `js/src/jsapi.c`. -/
def jsSetPrivate (o : JSObject) (p : ℕ) : JSObject :=
  { o with slots := o.slots.set JSSLOT_PRIVATE (.data p) }

/-- `JS_GetPrivate`; the int 0 is the null pointer. Source: lines 2160-2170 of
`js/src/jsapi.c`. -/
def jsGetPrivate (o : JSObject) : Option Pointer :=
  match o.slots[JSSLOT_PRIVATE]? with
  | some (.data p) => some (.stored p)
  | some (.value (.int i)) => if i = 0 then none else some (.madeOf i)
  | _ => none

/-- The object's own property of a name. -/
def property? (o : JSObject) (id : JSString) : Option JSScopeProperty :=
  o.scope.bind fun scope => scope.props id

/-- `OBJ_SET_SLOT` with a value. -/
def setSlot (o : JSObject) (slot : ℕ) (v : JSVal) : JSObject :=
  { o with slots := o.slots.set slot (.value v) }

/-- Store the scope of the object. -/
def setScope (o : JSObject) (scope : JSScope) : JSObject := { o with scope := some scope }

/-! ### Slots and scopes -/

/-- `js_GetMutableScope`. Source: lines 61-79 of `js/src/jsscope.c`. -/
def jsGetMutableScope (o : JSObject) (mem : Bool) : Option JSScope :=
  match o.scope with
  | some scope => some scope
  | none => if mem then some (jsNewScope o.clasp) else none

/-- The slot `js_AllocSlot` hands out next. -/
def nextSlot (clasp : JSClass) (scope : JSScope) : ℕ :=
  if scope.freeslot = clasp.slotFree then scope.freeslot + clasp.reserveSlots else scope.freeslot

/-- `js_AllocSlot`. Source: lines 2358-2392 of `js/src/jsobj.c`. -/
def jsAllocSlot (o : JSObject) (scope : JSScope) (mem : Bool) : JSObject × JSScope × Option ℕ :=
  let free := nextSlot o.clasp scope
  if scope.nslots ≤ free then
    let n := free + (free + 1) / 2
    if mem then
      ({ o with slots := allocSlots o.slots n }, { scope with freeslot := free + 1, nslots := n },
        some free)
    else (o, { scope with freeslot := free }, none)
  else (o, { scope with freeslot := free + 1 }, some free)

/-- `js_FreeSlot`. Source: lines 2394-2420 of `js/src/jsobj.c`. -/
def jsFreeSlot (o : JSObject) (scope : JSScope) (slot : ℕ) (mem : Bool) : JSObject × JSScope :=
  let o := o.setSlot slot .void
  let free := if scope.freeslot = slot + 1 then slot else scope.freeslot
  if JS_INITIAL_NSLOTS < scope.nslots ∧ free < scope.nslots / 2 ∧ mem = true then
    let n := max (free + free / 2) JS_INITIAL_NSLOTS
    ({ o with slots := allocSlots o.slots n }, { scope with freeslot := free, nslots := n })
  else (o, { scope with freeslot := free })

/-- `SPROP_HAS_VALID_SLOT`, with the slot. -/
def validSlot (scope : JSScope) (prop : JSScopeProperty) : Option ℕ :=
  prop.slot.filter (· < scope.freeslot)

/-- Enter a property in a scope. -/
def enter (scope : JSScope) (id : JSString) (prop : Option JSScopeProperty) : JSScope :=
  { scope with props := Function.update scope.props id prop }

/-- The slot of a property to be entered: none if it is shared, that of the property it
replaces, or a new one. -/
def placeProperty (o : JSObject) (scope : JSScope) (shared : Bool) (kept : Option ℕ) (mem : Bool) :
    JSObject × JSScope × Option (Option ℕ) :=
  if shared then (o, scope, some none)
  else
    match kept with
    | some slot => (o, scope, some (some slot))
    | none =>
        match jsAllocSlot o scope mem with
        | (o, scope, slot) => (o, scope, slot.map some)

/-- The slot that the property of a name leaves to one that replaces it. -/
def keptSlot (scope : JSScope) (id : JSString) : Option ℕ := (scope.props id).bind (validSlot scope)

/-- `js_AddScopeProperty`, with `SPROP_INVALID_SLOT` for the slot. Source: lines 867-1224
of `js/src/jsscope.c`. -/
def jsAddScopeProperty (o : JSObject) (scope : JSScope) (id : JSString) (attrs : PropertyAttrs)
    (r : SlotReplies) : JSObject × JSScope × Option JSScopeProperty :=
  let kept := if attrs.shared then none else keptSlot scope id
  if scope.sealed then (o, scope, none)
  else if scope.props id = some ⟨kept, attrs⟩ then (o, scope, some ⟨kept, attrs⟩)
  else
    match placeProperty o scope attrs.shared kept r.slots with
    | (o, scope, none) => (o, scope, none)
    | (o, scope, some slot) =>
        let prop := ⟨slot, { attrs with setter := r.watch.or attrs.setter }⟩
        if r.node then (o, enter scope id (some prop), some prop) else (o, scope, none)

/-- `js_RemoveScopeProperty`. Source: lines 1299-1368 of `js/src/jsscope.c`. -/
def jsRemoveScopeProperty (o : JSObject) (scope : JSScope) (id : JSString) (prop : JSScopeProperty)
    (r : SlotReplies) : JSObject × JSScope :=
  if !scope.sealed && r.node then
    match validSlot scope prop with
    | none => (o, enter scope id none)
    | some slot =>
        let s := jsFreeSlot o scope slot r.slots
        (s.1, enter s.2 id none)
  else (o, scope)

/-! ### Properties -/

/-- `js_DefineNativeProperty`, and what getters, setters and watchpoints come to. Source:
lines 2606-2713 of `js/src/jsobj.c`. -/
def jsDefineProperty (o : JSObject) (id : JSString) (v : JSVal) (attrs : PropertyAttrs)
    (r : SlotReplies) : JSObject :=
  match o.jsGetMutableScope r.scope with
  | none => o
  | some scope =>
      let attrs := { attrs with shared := o.clasp.shareAllProperties || attrs.shared }
      match jsAddScopeProperty o scope id attrs r with
      | (o, scope, none) => o.setScope scope
      | (o, scope, some prop) =>
          match validSlot scope prop with
          | none => o.setScope scope
          | some slot => (o.setSlot slot v).setScope scope

/-- The end of `js_SetProperty`, for a property in the object's scope: the stub setter
stores at once, any other runs first. -/
def setValue (o : JSObject) (prop : JSScopeProperty) (v : JSVal) : JSObject :=
  match prop.slot with
  | some slot =>
      if prop.attrs.setter.isNone then o.setSlot slot v
      else { o with setting := some slot :: o.setting }
  | none => { o with setting := none :: o.setting }

/-- The attributes of a property that `js_SetProperty` adds: one that shadows a property
with a short id takes that over, with the getter and the setter. -/
def shadowAttrs (clasp : JSClass) (proto : Option ProtoProperty) : PropertyAttrs :=
  match proto with
  | some ⟨_, _, getter, setter, some shortid⟩ =>
      ⟨true, false, false, clasp.shareAllProperties, getter, setter, some shortid⟩
  | _ => ⟨true, false, false, clasp.shareAllProperties, none, none, none⟩

/-- `js_SetProperty`: a property of a prototype is shadowed, unless it must not be set or
has a setter of its own to be called. Source: lines 3146-3332 of `js/src/jsobj.c`. -/
def jsSetProperty (o : JSObject) (id : JSString) (v : JSVal) (proto : Option ProtoProperty)
    (r : SlotReplies) : JSObject :=
  match o.property? id with
  | some prop =>
      if prop.attrs.readonly || o.scope.any JSScope.sealed then o else o.setValue prop v
  | none =>
      if (proto.any fun q => q.readonly || q.shared) || o.scope.any JSScope.sealed then o
      else
        match o.jsGetMutableScope r.scope with
        | none => o
        | some scope =>
            match jsAddScopeProperty o scope id (shadowAttrs o.clasp proto) r with
            | (o, scope, none) => o.setScope scope
            | (o, scope, some prop) =>
                match validSlot scope prop with
                | none => (o.setScope scope).setValue prop v
                | some slot => ((o.setSlot slot .void).setScope scope).setValue prop v

/-- The rest of `js_SetProperty` after the setter has run: the value is stored if the
slot is still in use. -/
def setterReturned (o : JSObject) (result : Option JSVal) : Option JSObject :=
  match o.setting with
  | [] => none
  | slot :: rest =>
      let o := { o with setting := rest }
      match result, slot, o.scope with
      | some v, some slot, some scope =>
          some (if slot < scope.freeslot then o.setSlot slot v else o)
      | _, _, _ => some o

/-- `js_DeleteProperty`. Source: lines 3389-3478 of `js/src/jsobj.c`. -/
def jsDeleteProperty (o : JSObject) (id : JSString) (r : SlotReplies) : JSObject :=
  match o.scope with
  | none => o
  | some scope =>
      match scope.props id with
      | none => o
      | some prop =>
          if prop.attrs.permanent then o
          else
            match jsRemoveScopeProperty o scope id prop r with
            | (o, scope) => o.setScope scope

/-- `js_SetProtoOrParent`; a prototype of another class makes the object have a scope of
its own. Source: lines 242-387 of `js/src/jsobj.c`. -/
def jsSetProtoOrParent (o : JSObject) (slot : ℕ) (v : JSVal) (own : Bool) (mem : Bool) : JSObject :=
  if own then
    match o.jsGetMutableScope mem with
    | none => o
    | some scope => (o.setScope scope).setSlot slot v
  else o.setSlot slot v

/-- `js_Clear`, which the shell's `clear` calls. Source: lines 4474-4511 of
`js/src/jsobj.c`. -/
def jsClear (o : JSObject) : JSObject :=
  match o.scope with
  | none => o
  | some scope =>
      { o with
        slots := o.slots.mapIdx fun i word =>
          if o.clasp.slotFree ≤ i ∧ i < scope.nslots then .value .void else word
        scope := some { scope with freeslot := o.clasp.slotFree, props := fun _ => none } }

/-- `JS_SealObject`, which the shell's `seal` calls. Source: lines 2268-2328 of
`js/src/jsapi.c`. -/
def jsSealObject (o : JSObject) (mem : Bool) : JSObject :=
  match o.jsGetMutableScope mem with
  | none => o
  | some scope => o.setScope { scope with sealed := true }

end JSObject

/-! ### Scripts -/

/-- What a script does to the properties of an object. -/
inductive PropertyOp
  | define (id : JSString) (v : JSVal) (attrs : PropertyAttrs) (r : SlotReplies)
  | set (id : JSString) (v : JSVal) (proto : Option ProtoProperty) (r : SlotReplies)
  | setterReturned (result : Option JSVal)
  | delete (id : JSString) (r : SlotReplies)
  | setProto (v : JSVal) (own mem : Bool)
  | setParent (v : JSVal)
  | clear
  | sealObject (mem : Bool)

/-- One operation. -/
def JSObject.exec (o : JSObject) : PropertyOp → Option JSObject
  | .define id v attrs r => some (o.jsDefineProperty id v attrs r)
  | .set id v proto r => some (o.jsSetProperty id v proto r)
  | .setterReturned result => o.setterReturned result
  | .delete id r => some (o.jsDeleteProperty id r)
  | .setProto v own mem => some (o.jsSetProtoOrParent JSSLOT_PROTO v own mem)
  | .setParent v => some (o.jsSetProtoOrParent JSSLOT_PARENT v false true)
  | .clear => some o.jsClear
  | .sealObject mem => some (o.jsSealObject mem)

/-- The operations as steps. -/
def Step (o : JSObject) (op : PropertyOp) (o' : JSObject) : Prop := o.exec op = some o'

/-- An instance of `JSUnit` as `JSUnit_CT` leaves it. Source: lines 166-195 of
`js/src/ext/jsunit.c`. -/
def newJSUnit (proto parent : JSVal) (classPtr suite : ℕ) : JSObject :=
  (jsNewObject jsunitClass true proto parent classPtr).jsSetPrivate suite

end Slots
end ProntoScript
