/-
# Unpacking arguments

How the constructors and methods of `TCPSocket`, `UDPSocket` and `JSUnit` take their
arguments apart (`js/src/ext/pstcpsocket.c`, `js/src/ext/psudpsocket.c`,
`js/src/ext/jsunit.c`), with a record of every `JSVAL_TO_INT`, `JSVAL_TO_DOUBLE`,
`JSVAL_TO_BOOLEAN` and `JSVAL_TO_STRING` they apply and of every variable they use
before it has a value.  Without the record these are the argument checks of the
functions modelled elsewhere (`unpackConnect_result` and the others).  A vector is
unpacked safely where every operation is applied to a value of its tag; which these
are is `EntryPoint.unpack_safe_iff`.

A number is an int or a double, and the methods ask `JS_TypeOfValue` for a number and
then take an int.
-/

import ProntoScript.Foundation.Recording
import ProntoScript.JSUnit.Suite
import ProntoScript.Socket.Udp

namespace ProntoScript

/-- The tags the code takes off. -/
inductive JSTag
  | int
  | double
  | boolean
  | string
deriving DecidableEq, Repr

/-- The value carries the tag. -/
def JSVal.hasTag : JSVal → JSTag → Bool
  | .int _, .int => true
  | .double _, .double => true
  | .boolean _, .boolean => true
  | .string _, .string => true
  | _, _ => false

/-- An operation of the unpacking code: `JSVAL_TO_…`, or the use of a local variable
that was not set. -/
inductive Use
  | untag (tag : JSTag) (v : JSVal)
  | uninitialised
deriving DecidableEq, Repr

/-- The operation is defined: the value has the tag that is taken off. -/
def Use.Defined : Use → Prop
  | untag tag v => v.hasTag tag = true
  | uninitialised => False

/-- Unpacking code: the operations it performs, and what it makes of the arguments or
the error it reports. -/
abbrev Unpack (ε α : Type) := Recording Use ε α

section Macros

variable {ε : Type}

/-- `JSVAL_TO_INT`. -/
def unpackInt (stray : ℤ) (v : JSVal) : Unpack ε ℤ := .use (.untag .int v) (jsvalToInt stray v)

/-- `JSVAL_TO_STRING`. -/
def unpackString (v : JSVal) : Unpack ε JSVal := .use (.untag .string v) v

end Macros

section Macros

variable {ε : Type} {tag : JSTag} {v : JSVal} {stray : ℤ}

@[simp] theorem untag_defined : (Use.untag tag v).Defined ↔ v.hasTag tag = true := Iff.rfl

@[simp] theorem uninitialised_defined : Use.uninitialised.Defined ↔ False := Iff.rfl

@[simp] theorem unpackInt_result :
    (unpackInt stray v : Unpack ε ℤ).result = .ok (jsvalToInt stray v) := rfl

@[simp] theorem unpackInt_all :
    (unpackInt stray v : Unpack ε ℤ).All Use.Defined ↔ v.hasTag .int = true := Recording.all_use

@[simp] theorem unpackString_result : (unpackString v : Unpack ε JSVal).result = .ok v := rfl

@[simp] theorem unpackString_all :
    (unpackString v : Unpack ε JSVal).All Use.Defined ↔ v.hasTag .string = true := Recording.all_use

end Macros

/-! ### `TCPSocket` -/

/-- `TCPSocket_CT`, lines 468-483. -/
def unpackBlocking (argv : List JSVal) : Unpack (Option ErrorReport) Bool :=
  match argv.headD .void with
  | .int i => .use (.untag .int (.int i)) (i != 0)
  | .double bits => .use (.untag .double (.double bits)) (doubleToInt bits != 0)
  | .boolean b => .use (.untag .boolean (.boolean b)) b
  | _ => pure false

/-- `TCPSocket_Connect`, lines 555-582. -/
def unpackConnect (r : ConnectReplies) (argv : List JSVal) :
    Unpack (Option ErrorReport) (List UInt8 × ℕ × ℤ) :=
  match argv with
  | peer :: port :: rest =>
      if typeOfValue peer ≠ .string then .fail (some ⟨.argumentNotString, none⟩)
      else do
        let peer ← unpackString peer
        if typeOfValue port ≠ .number then .fail (some ⟨.argumentNotInt, none⟩)
        else do
          let port ← unpackInt r.strayPort port
          match rest with
          | [timeout] =>
              if typeOfValue timeout ≠ .number then .fail (some ⟨.argumentNotInt, none⟩)
              else do
                let timeout ← unpackInt r.strayTimeout timeout
                pure (peerBytes peer, toUint16 port, throughUint32 timeout)
          | _ => pure (peerBytes peer, toUint16 port, 5000)
  | _ => .fail (some ⟨.notEnoughArguments, none⟩)

/-- `TCPSocket_Read`, lines 760-778: with a second argument the first one is taken
apart again. -/
def unpackRead (stray : ℤ) (argv : List JSVal) : Unpack (Option ErrorReport) ℕ :=
  match argv with
  | [] => pure 65535
  | count :: rest =>
      if typeOfValue count ≠ .number then .fail (some ⟨.argumentNotString, none⟩)
      else do
        let n ← unpackInt stray count
        match rest with
        | [] => pure (toUint16 n)
        | _ :: _ => do
            let _ ← unpackInt stray count
            pure (toUint16 n)

/-- `TCPSocket_Write`, lines 850-863. -/
def unpackWrite (argv : List JSVal) : Unpack (Option ErrorReport) JSVal :=
  match argv with
  | [] => .fail (some ⟨.notEnoughArguments, none⟩)
  | data :: _ =>
      if typeOfValue data ≠ .string then .fail (some ⟨.argumentNotString, none⟩)
      else unpackString data

/-! ### `UDPSocket` -/

/-- `UDPSocket_CT`, lines 378-388: the test for a number is the wrong way round. -/
def unpackPort (stray : ℤ) (argv : List JSVal) : Unpack (Option ErrorReport) ℕ :=
  let port := argv.headD .void
  if typeOfValue port ≠ .number then do
    let port ← unpackInt stray port
    pure (toUint16 port)
  else .fail (some ⟨.argumentNotInt, none⟩)

/-- `UDPSocket_Send`, lines 527-552. -/
def unpackSend (stray : ℤ) (argv : List JSVal) :
    Unpack (Option ErrorReport) (JSVal × JSVal × ℕ) :=
  match argv with
  | [data, peer, port] =>
      if typeOfValue data ≠ .string then .fail (some ⟨.argumentNotString, none⟩)
      else do
        let data ← unpackString data
        if typeOfValue peer ≠ .string then .fail (some ⟨.argumentNotString, none⟩)
        else do
          let peer ← unpackString peer
          if typeOfValue port ≠ .number then .fail (some ⟨.argumentNotInt, none⟩)
          else do
            let port ← unpackInt stray port
            pure (data, peer, toUint16 port)
  | _ => .fail (some ⟨.notEnoughArguments, none⟩)

/-! ### `JSUnit` -/

/-- `JSUnit_CT`, lines 173-176. -/
def unpackSuiteName (argv : List JSVal) : Unpack (Option JSUnitMsg) (Option JSVal) :=
  match argv with
  | [name] => do
      let name ← unpackString name
      pure (some name)
  | _ => pure none

/-- The test for a function and the stores to the new test case; the name may be a
variable that was not set. -/
def unpackCase (name : TestName) (func : JSVal) : Unpack (Option JSUnitMsg) (TestName × JSVal) :=
  if func.isFunction then
    match name with
    | .ofValue _ => pure (name, func)
    | .uninitialised => .use .uninitialised (name, func)
  else .fail (some .notFunction)

/-- `JSUnit_Add`, lines 232-261. -/
def unpackAdd (argv : List JSVal) : Unpack (Option JSUnitMsg) (TestName × JSVal) :=
  match argv with
  | [] => .fail (some .notEnoughArguments)
  | [name, func] => do
      let name ← unpackString name
      unpackCase (.ofValue name) func
  | func :: _ => unpackCase .uninitialised func

/-- `JSUnit_Assert`, lines 306-406: two values are taken apart only where they have
the same tag. -/
def unpackAssert (argv : List JSVal) : Unpack (Option JSUnitMsg) (JSVal × JSVal) :=
  match argv with
  | expected :: actual :: _ =>
      match expected, actual with
      | .int e, .int a => do
          let _ ← (.use (.untag .int (.int e)) e : Unpack _ ℤ)
          .use (.untag .int (.int a)) (expected, actual)
      | .double e, .double a => do
          let _ ← (.use (.untag .double (.double e)) e : Unpack _ UInt64)
          .use (.untag .double (.double a)) (expected, actual)
      | .string e, .string a => do
          let _ ← unpackString (.string e)
          .use (.untag .string (.string a)) (expected, actual)
      | .string e, .void => .use (.untag .string (.string e)) (expected, actual)
      | .boolean e, .boolean a => do
          let _ ← (.use (.untag .boolean (.boolean e)) e : Unpack _ Bool)
          .use (.untag .boolean (.boolean a)) (expected, actual)
      | _, _ => pure (expected, actual)
  | _ => .fail (some .notEnoughArguments)

/-! ### Without the record -/

section Results

variable {r : ConnectReplies} {argv : List JSVal} {stray : ℤ}

/-- Operation by operation `connect` takes what `tcpSocketConnectArgs` has. -/
theorem unpackConnect_result : (unpackConnect r argv).result = tcpSocketConnectArgs r argv := by
  rcases argv with _ | ⟨peer, _ | ⟨port, rest⟩⟩
  · rfl
  · rfl
  · by_cases hpeer : typeOfValue peer = .string
    · by_cases hport : typeOfValue port = .number
      · rcases rest with _ | ⟨timeout, _ | ⟨more, rest⟩⟩
        · simp [unpackConnect, tcpSocketConnectArgs, unpackString, unpackInt, Except.bind, hpeer,
            hport]
        · by_cases htimeout : typeOfValue timeout = .number <;>
            simp [unpackConnect, tcpSocketConnectArgs, unpackString, unpackInt, Except.bind, hpeer,
              hport, htimeout]
        · simp [unpackConnect, tcpSocketConnectArgs, unpackString, unpackInt, Except.bind, hpeer,
            hport]
      · simp [unpackConnect, tcpSocketConnectArgs, unpackString, Except.bind, hpeer, hport]
    · simp [unpackConnect, tcpSocketConnectArgs, hpeer]

/-- Operation by operation `read` takes what `tcpSocketReadCount` has. -/
theorem unpackRead_result : (unpackRead stray argv).result = tcpSocketReadCount stray argv := by
  unfold unpackRead tcpSocketReadCount
  cases argv with
  | nil => rfl
  | cons count rest =>
      dsimp only
      split_ifs with hnum
      · rfl
      · cases rest <;> rfl

/-- Operation by operation `add` takes what `jsunitAddArgs` has. -/
theorem unpackAdd_result : (unpackAdd argv).result = jsunitAddArgs argv := by
  have hcase : ∀ name func, (unpackCase name func).result =
      if func.isFunction then .ok (name, func) else .error (some .notFunction) := by
    intro name func
    unfold unpackCase
    split_ifs
    · cases name <;> rfl
    · rfl
  rcases argv with _ | ⟨func, _ | ⟨func', _ | ⟨more, rest⟩⟩⟩
  · rfl
  · exact hcase _ _
  · show (unpackCase (.ofValue func) func').result = _
    exact hcase _ _
  · exact hcase _ _

end Results

/-! ### The entry points -/

/-- The constructors and methods, with the words that come out of wrong tags. -/
inductive EntryPoint
  | tcpSocketCT
  | tcpSocketConnect (r : ConnectReplies)
  | tcpSocketClose
  | tcpSocketRead (stray : ℤ)
  | tcpSocketWrite
  | udpSocketCT (r : UdpReplies)
  | udpSocketClose
  | udpSocketSend (r : SendReplies)
  | jsunitCT
  | jsunitAdd
  | jsunitAssert
  | jsunitEvents
  | jsunitRun

namespace EntryPoint

/-- What the unpacking code performs on a vector of arguments. -/
def uses : EntryPoint → List JSVal → List Use
  | tcpSocketCT, argv => (unpackBlocking argv).uses
  | tcpSocketConnect r, argv => (unpackConnect r argv).uses
  | tcpSocketRead stray, argv => (unpackRead stray argv).uses
  | tcpSocketWrite, argv => (unpackWrite argv).uses
  | udpSocketCT r, argv => (unpackPort r.strayPort argv).uses
  | udpSocketSend r, argv => (unpackSend r.strayPort argv).uses
  | jsunitCT, argv => (unpackSuiteName argv).uses
  | jsunitAdd, argv => (unpackAdd argv).uses
  | jsunitAssert, argv => (unpackAssert argv).uses
  | tcpSocketClose, _ | udpSocketClose, _ | jsunitEvents, _ | jsunitRun, _ => []

/-- A vector the unpacking code rejects makes the call fail with its error, and leaves
the state as it was; a new `UDPSocket` then has no private data. -/
def Rejects : EntryPoint → List JSVal → Prop
  | tcpSocketConnect r, argv => ∀ p obj tcp e, p.tcp? obj = some tcp →
      (unpackConnect r argv).result = .error e →
      ProntoScript.tcpSocketConnect p obj argv r = (p, .error e)
  | tcpSocketRead stray, argv => ∀ p obj tcp e replies, p.tcp? obj = some tcp →
      (unpackRead stray argv).result = .error e →
      ProntoScript.tcpSocketRead p obj argv stray replies = some (p, .error e)
  | tcpSocketWrite, argv => ∀ p obj tcp e sent, p.tcp? obj = some tcp →
      (unpackWrite argv).result = .error e →
      ProntoScript.tcpSocketWrite p obj argv sent = (p, .error e)
  | udpSocketCT r, argv => ∀ p obj e, (unpackPort r.strayPort argv).result = .error e →
      ProntoScript.udpSocketCT p obj argv r =
        some (p.setObj obj (.live (.udpSocket none)), .error e)
  | udpSocketSend r, argv => ∀ p obj udp e, p.udp? obj = some udp →
      (unpackSend r.strayPort argv).result = .error e →
      ProntoScript.udpSocketSend p obj argv r = (p, .error e)
  | jsunitAdd, argv => ∀ suite mem e, (unpackAdd argv).result = .error e →
      ProntoScript.jsunitAdd suite argv mem = (suite, .error e)
  | jsunitAssert, argv => ∀ suite e, (unpackAssert argv).result = .error e →
      ProntoScript.jsunitAssert suite argv = .returned suite (.error e)
  | _, _ => True

/-- Unpacking is tag-safe: every operation performed is defined, and a rejected vector
changes nothing. -/
def TagSafe (e : EntryPoint) (argv : List JSVal) : Prop :=
  (∀ u ∈ e.uses argv, u.Defined) ∧ e.Rejects argv

/-- The vectors an entry point is written for, and those it rejects in time. -/
def Takes : EntryPoint → List JSVal → Prop
  | tcpSocketConnect _, .string _ :: .double _ :: _ => False
  | tcpSocketConnect _, [.string _, .int _, .double _] => False
  | tcpSocketRead _, .double _ :: _ => False
  | udpSocketCT _, argv => typeOfValue (argv.headD .void) = .number
  | udpSocketSend _, [.string _, .string _, .double _] => False
  | jsunitCT, [name] => name.hasTag .string = true
  | jsunitAdd, [name, _] => name.hasTag .string = true
  | jsunitAdd, func :: _ => func.isFunction = false
  | _, _ => True

section Safety

variable {argv : List JSVal} {stray : ℤ} {func : JSVal}

/-- **`TCPSocket`** asks for the tag of its argument each time. -/
theorem unpackBlocking_safe : (unpackBlocking argv).All Use.Defined := by
  unfold unpackBlocking
  cases argv.headD .void <;> simp [JSVal.hasTag]

/-- **`connect`** takes a port and a timeout for ints where they are numbers. -/
theorem unpackConnect_safe_iff {r : ConnectReplies} :
    (unpackConnect r argv).All Use.Defined ↔ (tcpSocketConnect r).Takes argv := by
  rcases argv with _ | ⟨peer, _ | ⟨port, _ | ⟨timeout, _ | ⟨more, rest⟩⟩⟩⟩
  · simp [unpackConnect, Takes]
  · simp [unpackConnect, Takes]
  · cases peer <;> cases port <;> simp [unpackConnect, Takes, typeOfValue, JSVal.hasTag]
  · cases peer <;> cases port <;> cases timeout <;>
      simp [unpackConnect, Takes, typeOfValue, JSVal.hasTag]
  · cases peer <;> cases port <;> simp [unpackConnect, Takes, typeOfValue, JSVal.hasTag]

/-- **`read`** takes its first argument for an int where it is a number. -/
theorem unpackRead_safe_iff :
    (unpackRead stray argv).All Use.Defined ↔ (tcpSocketRead stray).Takes argv := by
  rcases argv with _ | ⟨count, _ | ⟨more, rest⟩⟩
  · simp [unpackRead, Takes]
  · cases count <;> simp [unpackRead, Takes, typeOfValue, JSVal.hasTag]
  · cases count <;> simp [unpackRead, Takes, typeOfValue, JSVal.hasTag]

/-- **`write`** takes strings only. -/
theorem unpackWrite_safe : (unpackWrite argv).All Use.Defined := by
  rcases argv with _ | ⟨data, rest⟩
  · simp [unpackWrite]
  · cases data <;> simp [unpackWrite, typeOfValue, JSVal.hasTag]

/-- **`UDPSocket`** takes for an int what is no number. -/
theorem unpackPort_safe_iff {r : UdpReplies} :
    (unpackPort r.strayPort argv).All Use.Defined ↔ (udpSocketCT r).Takes argv := by
  show _ ↔ typeOfValue (argv.headD .void) = .number
  unfold unpackPort
  generalize argv.headD .void = port
  cases port <;> simp [typeOfValue, JSVal.hasTag]

/-- **`send`** takes its port for an int where it is a number. -/
theorem unpackSend_safe_iff {r : SendReplies} :
    (unpackSend r.strayPort argv).All Use.Defined ↔ (udpSocketSend r).Takes argv := by
  rcases argv with _ | ⟨data, _ | ⟨peer, _ | ⟨port, _ | ⟨more, rest⟩⟩⟩⟩
  · simp [unpackSend, Takes]
  · simp [unpackSend, Takes]
  · simp [unpackSend, Takes]
  · cases data <;> cases peer <;> cases port <;>
      simp [unpackSend, Takes, typeOfValue, JSVal.hasTag]
  · simp [unpackSend, Takes]

/-- **`JSUnit`** takes a single argument for a string. -/
theorem unpackSuiteName_safe_iff :
    (unpackSuiteName argv).All Use.Defined ↔ jsunitCT.Takes argv := by
  rcases argv with _ | ⟨name, _ | ⟨more, rest⟩⟩ <;> simp [unpackSuiteName, Takes]

/-- A test case has a name, or no function and is refused. -/
theorem unpackCase_safe_iff {name : TestName} :
    (unpackCase name func).All Use.Defined ↔ name ≠ .uninitialised ∨ func.isFunction = false := by
  unfold unpackCase
  cases name <;> cases func.isFunction <;> simp

/-- **`add`** takes the first of two arguments for a string, and has no name otherwise. -/
theorem unpackAdd_safe_iff : (unpackAdd argv).All Use.Defined ↔ jsunitAdd.Takes argv := by
  rcases argv with _ | ⟨func, _ | ⟨func', _ | ⟨more, rest⟩⟩⟩ <;>
    simp [unpackAdd, Takes, unpackCase_safe_iff]

/-- **`assert`** asks for both tags before it takes anything apart. -/
theorem unpackAssert_safe : (unpackAssert argv).All Use.Defined := by
  rcases argv with _ | ⟨expected, _ | ⟨actual, rest⟩⟩
  · simp [unpackAssert]
  · simp [unpackAssert]
  · cases expected <;> cases actual <;> simp [unpackAssert, JSVal.hasTag]

/-- `write` is rejected for want of a string. -/
theorem rejects_write {p : Process} {obj : ObjId} {tcp : TCPSocket} {e : Option ErrorReport}
    {sent : ℤ} (htcp : p.tcp? obj = some tcp) (he : (unpackWrite argv).result = .error e) :
    ProntoScript.tcpSocketWrite p obj argv sent = (p, .error e) := by
  unfold ProntoScript.tcpSocketWrite
  rw [htcp]
  cases argv with
  | nil =>
      cases he
      rfl
  | cons data rest =>
      cases data with
      | string s => cases he
      | _ =>
          simp only [unpackWrite, typeOfValue] at he
          cases he
          rfl

/-- `send` is rejected for its number of arguments, or for one of another type. -/
theorem rejects_send {p : Process} {obj : ObjId} {udp : UDPSocket} {e : Option ErrorReport}
    {r : SendReplies} (hudp : p.udp? obj = some udp)
    (he : (unpackSend r.strayPort argv).result = .error e) :
    ProntoScript.udpSocketSend p obj argv r = (p, .error e) := by
  unfold ProntoScript.udpSocketSend
  rw [hudp]
  rcases argv with _ | ⟨data, _ | ⟨peer, _ | ⟨port, _ | ⟨more, rest⟩⟩⟩⟩
  · cases he
    rfl
  · cases he
    cases data <;> rfl
  · cases he
    cases data <;> rfl
  · cases data with
    | string s =>
        have hdata : typeOfValue (.string s) = .string := rfl
        by_cases hpeer : typeOfValue peer = .string
        · by_cases hport : typeOfValue port = .number
          · simp [unpackSend, hdata, Except.bind, hpeer, hport] at he
          · simp only [unpackSend, hdata, Except.bind, hpeer, hport, ne_eq, not_true, not_false_iff,
              if_false, if_true, Recording.result_bind, Recording.result_fail, unpackString_result,
              Except.error.injEq] at he
            simp [hpeer, hport, reportError, ← he]
        · simp only [unpackSend, hdata, Except.bind, hpeer, ne_eq, not_true, not_false_iff,
            if_false, if_true, Recording.result_bind, Recording.result_fail, unpackString_result,
            Except.error.injEq] at he
          simp [hpeer, reportError, ← he]
    | _ =>
        cases he
        rfl
  · cases he
    cases data <;> rfl

/-- **A rejected vector changes nothing.** -/
theorem rejects (e : EntryPoint) (argv : List JSVal) : e.Rejects argv := by
  cases e with
  | tcpSocketConnect r =>
      intro p obj tcp e htcp he
      rw [unpackConnect_result] at he
      simp [ProntoScript.tcpSocketConnect, htcp, connectTarget, he]
  | tcpSocketRead stray =>
      intro p obj tcp e replies htcp he
      rw [unpackRead_result] at he
      simp [ProntoScript.tcpSocketRead, htcp, he]
  | tcpSocketWrite => exact fun p obj tcp e sent htcp he => rejects_write htcp he
  | udpSocketCT r =>
      intro p obj e he
      unfold unpackPort at he
      unfold ProntoScript.udpSocketCT
      dsimp only at he ⊢
      by_cases hnum : typeOfValue (argv.headD .void) = .number
      · rw [if_neg (not_not.2 hnum)] at he ⊢
        cases he
        rfl
      · rw [if_pos hnum] at he
        cases he
  | udpSocketSend r => exact fun p obj udp e hudp he => rejects_send hudp he
  | jsunitAdd =>
      intro suite mem e he
      rw [unpackAdd_result] at he
      simp [ProntoScript.jsunitAdd, he]
  | jsunitAssert =>
      intro suite e he
      rcases argv with _ | ⟨expected, _ | ⟨actual, rest⟩⟩
      · cases he
        rfl
      · cases he
        rfl
      · cases expected <;> cases actual <;> cases he
  | _ => trivial

/-- **Which vectors are unpacked safely.**  An entry point unpacks a vector of arguments
with defined operations only, rejecting it before anything changes if it rejects it at
all, exactly if the vector is one of those it is written for.  The others have a value
untagged as what it is not, a stray word read behind the vector, or a name that is never
set.  Source: `TCPSocket_Connect` (lines 555-582) and `TCPSocket_Read` (lines 760-778) of
`js/src/ext/pstcpsocket.c`, `UDPSocket_CT` (lines 378-388 of `js/src/ext/psudpsocket.c`)
and `JSUnit_Add` (lines 221-261 of `js/src/ext/jsunit.c`). -/
theorem unpack_safe_iff (e : EntryPoint) (argv : List JSVal) : e.TagSafe argv ↔ e.Takes argv := by
  rw [TagSafe, and_iff_left (e.rejects argv)]
  cases e with
  | tcpSocketCT => exact iff_of_true unpackBlocking_safe trivial
  | tcpSocketConnect r => exact unpackConnect_safe_iff
  | tcpSocketClose => exact iff_of_true (by rintro u ⟨⟩) trivial
  | tcpSocketRead stray => exact unpackRead_safe_iff
  | tcpSocketWrite => exact iff_of_true unpackWrite_safe trivial
  | udpSocketCT r => exact unpackPort_safe_iff
  | udpSocketClose => exact iff_of_true (by rintro u ⟨⟩) trivial
  | udpSocketSend r => exact unpackSend_safe_iff
  | jsunitCT => exact unpackSuiteName_safe_iff
  | jsunitAdd => exact unpackAdd_safe_iff
  | jsunitAssert => exact iff_of_true unpackAssert_safe trivial
  | jsunitEvents => exact iff_of_true (by rintro u ⟨⟩) trivial
  | jsunitRun => exact iff_of_true (by rintro u ⟨⟩) trivial

/-- **A count that is a double is taken for an int**, and `read` goes on with the word. -/
theorem read_untags_double :
    ¬ (tcpSocketRead 17).TagSafe [.double 0x4059200000000000] ∧
      tcpSocketReadCount 17 [.double 0x4059200000000000] = .ok 17 := by
  refine ⟨fun h => ?_, rfl⟩
  have hdef : (Use.untag .int (.double 0x4059200000000000)).Defined := h.1 _ (.head _)
  cases hdef

end Safety

end EntryPoint

end ProntoScript
