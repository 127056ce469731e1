/-
# Receivers

Which object a native function finds as its `this`.  `JS_GetPrivate`
(`js/src/jsapi.c`, lines 2160-2187) takes the word in `JSSLOT_PRIVATE`, the fourth
slot, for a pointer if it is tagged as an int, whatever the class of the object;
`JS_GetInstancePrivate` looks at the class first.  The methods of `TCPSocket`,
`UDPSocket` and `JSUnit` use the former, their property hooks the latter, and the
constructors store with `JS_SetPrivate` to whatever object they are called on.

In an object of a class without private data the fourth slot is the first one of its
own properties: `({x: 5})` has the int 5 there.  That holds of `JSUnit` as well, whose
class does not ask for private data.
-/

import ProntoScript.Native.Unpack

namespace ProntoScript

/-- The classes with native structs of their own. -/
inductive NativeClass
  | tcpSocket
  | udpSocket
  | jsunit
deriving DecidableEq, Repr

/-- What the word in `JSSLOT_PRIVATE` is. -/
inductive PrivateSlot
  | void
  | data (c : NativeClass)
  | foreign
  | int (i : ℤ)
  | tagged
deriving DecidableEq, Repr

/-- A pointer that is not `NULL`: to a struct of a class, or to anything else. -/
inductive PrivatePointer
  | struct (c : NativeClass)
  | wild
deriving DecidableEq, Repr

/-- An object as `this`: its class, `none` for any other, the word in its fourth
slot, and whether `new` made it for this very call. -/
structure Receiver where
  clasp : Option NativeClass
  slot : PrivateSlot
  fresh : Bool
deriving DecidableEq, Repr

/-- What a native function does with the private data of its receiver. -/
inductive Outcome
  | failed
  | ignored
  | uses (c : NativeClass) (ptr : PrivatePointer)
  | nullWrite
  | nullRead
  | installs (c : NativeClass)
deriving DecidableEq, Repr

namespace Receiver

/-- `JS_GetPrivate`; the null pointer is stored as the int 0. Source: lines 2160-2170 of
`js/src/jsapi.c`. -/
def getPrivate (o : Receiver) : Option PrivatePointer :=
  match o.slot with
  | .void => none
  | .data c => some (.struct c)
  | .foreign => some .wild
  | .int i => if i = 0 then none else some .wild
  | .tagged => none

/-- `JS_GetInstancePrivate`. Source: lines 2180-2187 of `js/src/jsapi.c`. -/
def getInstancePrivate (o : Receiver) (c : NativeClass) : Option PrivatePointer :=
  if o.clasp = some c then o.getPrivate else none

/-- An instance of the class that holds a struct of the class. -/
def Holds (o : Receiver) (c : NativeClass) : Prop := o.clasp = some c ∧ o.slot = .data c

instance (o : Receiver) (c : NativeClass) : Decidable (o.Holds c) :=
  inferInstanceAs (Decidable (_ ∧ _))

/-- A method: it fails without private data, or on its arguments, before it uses the
data. -/
def method (o : Receiver) (c : NativeClass) (rejected : Bool) : Outcome :=
  match o.getPrivate with
  | none => .failed
  | some ptr => if rejected then .failed else .uses c ptr

/-- A get hook: it leaves `*vp` alone for another property or without private data. -/
def getHook (o : Receiver) (c : NativeClass) (known : Bool) : Outcome :=
  match o.getInstancePrivate c with
  | none => .ignored
  | some ptr => if known then .uses c ptr else .ignored

/-- A set hook: it stores functions for handler properties, with no look at the
pointer. -/
def setHook (o : Receiver) (c : NativeClass) (stores : Bool) : Outcome :=
  if stores then
    match o.getInstancePrivate c with
    | none => .nullWrite
    | some ptr => .uses c ptr
  else .ignored

/-- A constructor: it fails before `JS_SetPrivate`, or stores whatever the object. -/
def construct (c : NativeClass) (reaches : Bool) : Outcome :=
  if reaches then .installs c else .failed

end Receiver

/-- A call of native code: the function, its arguments and the answers that decide
whether it gets to the private data. -/
inductive NativeCall
  | tcpSocketCT
  | tcpSocketGetProperty (slot : Option TCPSocketTinyId)
  | tcpSocketSetProperty (slot : Option TCPSocketTinyId) (vp : JSVal)
  | tcpSocketConnect (argv : List JSVal) (r : ConnectReplies)
  | tcpSocketClose
  | tcpSocketRead (argv : List JSVal) (stray : ℤ)
  | tcpSocketWrite (argv : List JSVal)
  | udpSocketCT (opens : Bool)
  | udpSocketGetProperty (slot : Option UDPSocketTinyId)
  | udpSocketSetProperty (slot : Option UDPSocketTinyId) (vp : JSVal)
  | udpSocketClose
  | udpSocketSend (argv : List JSVal) (r : SendReplies)
  | jsunitCT
  | jsunitAdd (argv : List JSVal) (mem : Bool)
  | jsunitAssert (argv : List JSVal)
  | jsunitEvents
  | jsunitRun

/-- The computation fails. -/
def rejected {ε α : Type} : Except ε α → Bool
  | .ok _ => false
  | .error _ => true

/-- A handler property is asked for, or set to a function. -/
def storesTcp (slot : Option TCPSocketTinyId) (vp : JSVal) : Bool :=
  match slot with
  | some (.handler _) => vp.isFunction
  | _ => false

/-- `send` fails on its arguments or on the lookup of its peer. -/
def sendRejected (argv : List JSVal) (r : SendReplies) : Bool :=
  match (unpackSend r.strayPort argv).result with
  | .error _ => true
  | .ok (_, peer, _) => rejected (peerAddress r.inetAddr r.lookup (peerBytes peer))

namespace NativeCall

/-- What the call does with the private data of its receiver. -/
def outcome (o : Receiver) : NativeCall → Outcome
  | tcpSocketCT => Receiver.construct .tcpSocket true
  | tcpSocketGetProperty slot => o.getHook .tcpSocket slot.isSome
  | tcpSocketSetProperty slot vp => o.setHook .tcpSocket (storesTcp slot vp)
  | tcpSocketConnect argv r => o.method .tcpSocket (rejected (connectTarget r argv))
  | tcpSocketClose => o.method .tcpSocket false
  | tcpSocketRead argv stray => o.method .tcpSocket (rejected (tcpSocketReadCount stray argv))
  | tcpSocketWrite argv => o.method .tcpSocket (rejected (unpackWrite argv).result)
  | udpSocketCT opens => Receiver.construct .udpSocket opens
  | udpSocketGetProperty slot => o.getHook .udpSocket slot.isSome
  | udpSocketSetProperty slot vp => o.setHook .udpSocket (slot.isSome && vp.isFunction)
  | udpSocketClose => o.method .udpSocket false
  | udpSocketSend argv r => o.method .udpSocket (sendRejected argv r)
  | jsunitCT => Receiver.construct .jsunit true
  | jsunitAdd argv mem => o.method .jsunit (rejected (jsunitAddArgs argv) || !mem)
  | jsunitAssert argv =>
      match argv with
      | expected :: actual :: _ =>
          match o.getPrivate with
          | none => .failed
          | some ptr =>
              match assertCompare expected actual with
              | none => .nullRead
              | some true => .ignored
              | some false => .uses .jsunit ptr
      | _ => .failed
  | jsunitEvents => .ignored
  | jsunitRun => o.method .jsunit false

/-- The class whose struct the call is about. -/
def clasp : NativeCall → NativeClass
  | tcpSocketCT | tcpSocketGetProperty _ | tcpSocketSetProperty _ _ | tcpSocketConnect _ _
  | tcpSocketClose | tcpSocketRead _ _ | tcpSocketWrite _ => .tcpSocket
  | udpSocketCT _ | udpSocketGetProperty _ | udpSocketSetProperty _ _ | udpSocketClose
  | udpSocketSend _ _ => .udpSocket
  | jsunitCT | jsunitAdd _ _ | jsunitAssert _ | jsunitEvents | jsunitRun => .jsunit

/-- The receivers other than the instances with data that the call turns away: a
method those that have no pointer in their slot, or all of them on its arguments; a
get hook those of other classes as well; a set hook all of them, if it has nothing to
store; a constructor none but those it fails for. -/
def TurnsAway (o : Receiver) : NativeCall → Prop
  | tcpSocketCT | jsunitCT => False
  | udpSocketCT opens => opens = false
  | tcpSocketGetProperty slot => slot = none ∨ o.clasp ≠ some .tcpSocket ∨ o.getPrivate = none
  | udpSocketGetProperty slot => slot = none ∨ o.clasp ≠ some .udpSocket ∨ o.getPrivate = none
  | tcpSocketSetProperty slot vp => storesTcp slot vp = false
  | udpSocketSetProperty slot vp => slot = none ∨ vp.isFunction = false
  | tcpSocketConnect argv r => o.getPrivate = none ∨ rejected (connectTarget r argv) = true
  | tcpSocketClose | udpSocketClose | jsunitRun => o.getPrivate = none
  | tcpSocketRead argv stray =>
      o.getPrivate = none ∨ rejected (tcpSocketReadCount stray argv) = true
  | tcpSocketWrite argv => o.getPrivate = none ∨ rejected (unpackWrite argv).result = true
  | udpSocketSend argv r => o.getPrivate = none ∨ sendRejected argv r = true
  | jsunitAdd argv mem => o.getPrivate = none ∨ rejected (jsunitAddArgs argv) = true ∨ mem = false
  | jsunitAssert argv =>
      match argv with
      | expected :: actual :: _ =>
          o.getPrivate = none ∨ assertCompare expected actual = some true
      | _ => True
  | jsunitEvents => True

/-- The receivers a call is made for: an instance that holds the struct of the class,
and for a constructor a fresh instance. -/
def MadeFor (o : Receiver) : NativeCall → Prop
  | tcpSocketCT => o.clasp = some .tcpSocket ∧ o.fresh = true
  | udpSocketCT _ => o.clasp = some .udpSocket ∧ o.fresh = true
  | jsunitCT => o.clasp = some .jsunit ∧ o.fresh = true
  | call => o.Holds call.clasp

end NativeCall

/-- What the native code may do to its receiver: use private data of an instance that
holds the struct of the class, install data in a fresh instance, or else leave it
alone. -/
def Outcome.Respects (o : Receiver) : Outcome → Prop
  | failed | ignored => True
  | uses c _ => o.Holds c
  | nullWrite => False
  | nullRead => o.Holds .jsunit
  | installs c => o.clasp = some c ∧ o.fresh = true

section

variable {o : Receiver} {c : NativeClass} {b : Bool}

/-- What holds a struct gives it to `JS_GetPrivate`. -/
theorem getPrivate_of_holds (h : o.Holds c) : o.getPrivate = some (.struct c) := by
  rw [Receiver.getPrivate, h.2]

/-- **A method** takes what is in the private slot, of whatever class the object is. -/
theorem method_respects_iff :
    (o.method c b).Respects o ↔ o.Holds c ∨ o.getPrivate = none ∨ b = true := by
  unfold Receiver.method
  cases hptr : o.getPrivate with
  | none => simp [Outcome.Respects]
  | some ptr => cases b <;> simp [Outcome.Respects]

/-- **A get hook** asks for the class first. -/
theorem getHook_respects_iff :
    (o.getHook c b).Respects o ↔
      o.Holds c ∨ b = false ∨ o.clasp ≠ some c ∨ o.getPrivate = none := by
  unfold Receiver.getHook Receiver.getInstancePrivate
  by_cases hc : o.clasp = some c
  · rw [if_pos hc]
    cases hptr : o.getPrivate with
    | none => simp [Outcome.Respects]
    | some ptr => cases b <;> simp [Outcome.Respects, hc]
  · rw [if_neg hc]
    simp [Outcome.Respects, hc]

/-- **A set hook** asks for the class as well, but writes through the answer also where it
is NULL, unless it has nothing to store. -/
theorem setHook_respects_iff : (o.setHook c b).Respects o ↔ o.Holds c ∨ b = false := by
  unfold Receiver.setHook Receiver.getInstancePrivate
  cases b with
  | false => simp [Outcome.Respects]
  | true =>
      by_cases hc : o.clasp = some c
      · rw [if_pos hc]
        cases hptr : o.getPrivate with
        | none =>
            refine iff_of_false id ?_
            rintro (h | h)
            · rw [getPrivate_of_holds h] at hptr
              cases hptr
            · cases h
        | some ptr => simp [Outcome.Respects]
      · rw [if_neg hc]
        simp [Outcome.Respects, Receiver.Holds, hc]

/-- **A constructor** stores its struct in whatever object it is called on, unless it
fails before. -/
theorem construct_respects_iff :
    (Receiver.construct c b).Respects o ↔ (o.clasp = some c ∧ o.fresh = true) ∨ b = false := by
  cases b <;> simp [Receiver.construct, Outcome.Respects]

/-- An assert reads its arguments' bytes after it has found a pointer, and writes to
the suite only if they differ. -/
theorem jsunitAssert_respects_iff {argv : List JSVal} :
    ((NativeCall.jsunitAssert argv).outcome o).Respects o ↔
      o.Holds .jsunit ∨ (NativeCall.jsunitAssert argv).TurnsAway o := by
  rcases argv with _ | ⟨expected, _ | ⟨actual, rest⟩⟩
  · simp [NativeCall.outcome, NativeCall.TurnsAway, Outcome.Respects]
  · simp [NativeCall.outcome, NativeCall.TurnsAway, Outcome.Respects]
  · simp only [NativeCall.outcome, NativeCall.TurnsAway]
    cases hptr : o.getPrivate with
    | none => simp [Outcome.Respects]
    | some ptr => rcases assertCompare expected actual with _ | (_ | _) <;> simp [Outcome.Respects]

end

/-- **Receivers.** A native function keeps its hands off a receiver exactly if the
receiver is an instance of the class that holds a struct of the class, for a constructor a
fresh instance, or the function turns it away. The hooks ask for the class, a set hook
without a look at the answer; the methods take the word in the private slot as it is.
Source: `JS_GetPrivate` and `JS_GetInstancePrivate` (lines 2160-2187 of `js/src/jsapi.c`),
with `TCPSocket_SetProperty` (lines 216-257), `TCPSocket_CT` (lines 453-494) and
`TCPSocket_Close` (lines 701-718) of `js/src/ext/pstcpsocket.c` and their like. -/
theorem NativeCall.respects_iff (call : NativeCall) (o : Receiver) :
    (call.outcome o).Respects o ↔ call.MadeFor o ∨ call.TurnsAway o := by
  cases call with
  | tcpSocketCT => exact construct_respects_iff.trans (by simp [MadeFor, TurnsAway])
  | udpSocketCT opens => exact construct_respects_iff
  | jsunitCT => exact construct_respects_iff.trans (by simp [MadeFor, TurnsAway])
  | tcpSocketGetProperty slot =>
      exact getHook_respects_iff.trans (by simp [MadeFor, TurnsAway, clasp])
  | udpSocketGetProperty slot =>
      exact getHook_respects_iff.trans (by simp [MadeFor, TurnsAway, clasp])
  | tcpSocketSetProperty slot vp => exact setHook_respects_iff
  | udpSocketSetProperty slot vp =>
      refine setHook_respects_iff.trans (or_congr Iff.rfl ?_)
      cases slot <;> simp [TurnsAway]
  | tcpSocketConnect argv r => exact method_respects_iff
  | tcpSocketClose => exact method_respects_iff.trans (by simp [MadeFor, TurnsAway, clasp])
  | tcpSocketRead argv stray => exact method_respects_iff
  | tcpSocketWrite argv => exact method_respects_iff
  | udpSocketClose => exact method_respects_iff.trans (by simp [MadeFor, TurnsAway, clasp])
  | udpSocketSend argv r => exact method_respects_iff
  | jsunitAdd argv mem =>
      exact method_respects_iff.trans (by simp [MadeFor, TurnsAway, clasp])
  | jsunitAssert argv => exact jsunitAssert_respects_iff
  | jsunitEvents => simp [outcome, TurnsAway, Outcome.Respects]
  | jsunitRun => exact method_respects_iff.trans (by simp [MadeFor, TurnsAway, clasp])

/-- `TCPSocket.prototype.close.call({x: 5})` takes the 5 for a pointer. -/
theorem NativeCall.close_on_plain_object :
    ¬ ∀ (call : NativeCall) (o : Receiver), (call.outcome o).Respects o := by
  intro h
  have hwild := h .tcpSocketClose ⟨none, .int 5, false⟩
  revert hwild
  show ¬ (Receiver.mk none (.int 5) false).Holds .tcpSocket
  decide

end ProntoScript
