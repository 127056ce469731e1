/-
# The state the native code of the sockets works on

The private data of the two classes (`TCPSocket` in `js/src/ext/pstcpsocket.c`,
lines 74-91, `UDPSocket` in `js/src/ext/psudpsocket.c`, lines 73-82), the objects
they are attached to, the registry of select events and the log of system calls.

The registry is taken as the map keyed by descriptor that `ps_AddSelect` and
`ps_RemoveSelect` are meant to keep, and the calls of the two functions are recorded
beside it, so that they can be made on the linked list of `js/src/ext/psselect.c` as
well.  A constructor attaches private data once; `JS_SetPrivate` never fails, but the
pointer it stores is `NULL` where the constructor's `JS_malloc` returned `NULL`.
-/

import ProntoScript.Engine.Utf8
import ProntoScript.Socket.SysCall

namespace ProntoScript

/-- `TCPSocketState`. Source: lines 76-80 of `js/src/ext/pstcpsocket.c`. -/
inductive TCPSocketState
  | unconnected
  | connecting
  | connected
deriving DecidableEq, Repr

/-- `TCPSocket`: the private data of a `TCPSocket` object. Source: lines 82-90 of
`js/src/ext/pstcpsocket.c`. -/
structure TCPSocket where
  blocking : Bool
  onConnect : JSVal
  onData : JSVal
  onClose : JSVal
  onIOError : JSVal
  fd : ℤ
  state : TCPSocketState
deriving DecidableEq, Repr

/-- `UDPSocket`: the private data of a `UDPSocket` object.  Its `blocking` field is
neither set nor read. Source: lines 76-82 of `js/src/ext/psudpsocket.c`. -/
structure UDPSocket where
  onData : JSVal
  onIOError : JSVal
  fd : ℤ
  port : ℤ
deriving DecidableEq, Repr

/-- An object of one of the two classes with its private data, if any. -/
inductive JSObject
  | tcpSocket (priv : Option TCPSocket)
  | udpSocket (priv : Option UDPSocket)
deriving DecidableEq, Repr

/-- The life of an object: not made yet, made, or finalised by the collector. -/
inductive ObjState
  | unborn
  | live (obj : JSObject)
  | finalised
deriving DecidableEq, Repr

namespace ObjState

/-- The private data of a live `TCPSocket`. -/
def tcp? : ObjState → Option TCPSocket
  | .live (.tcpSocket priv) => priv
  | _ => none

/-- The private data of a live `UDPSocket`. -/
def udp? : ObjState → Option UDPSocket
  | .live (.udpSocket priv) => priv
  | _ => none

/-- The `fd` field of the private data of a live object. -/
def fd : ObjState → Option ℤ
  | .live (.tcpSocket priv) => priv.map TCPSocket.fd
  | .live (.udpSocket priv) => priv.map UDPSocket.fd
  | _ => none

variable {s : ObjState} {tcp : TCPSocket} {udp : UDPSocket}

/-- The private data says which object it is. -/
theorem eq_of_tcp? (h : s.tcp? = some tcp) : s = .live (.tcpSocket (some tcp)) := by
  rcases s with _ | (_ | _) | _ <;> cases h
  rfl

/-- An object with the data of a `UDPSocket` is one. -/
theorem eq_of_udp? (h : s.udp? = some udp) : s = .live (.udpSocket (some udp)) := by
  rcases s with _ | (_ | _) | _ <;> cases h
  rfl

end ObjState

/-- A call of `ps_AddSelect` whose `JS_malloc` succeeds, or one of `ps_RemoveSelect`. -/
inductive SelectUse
  | add (fd : ℤ) (fdsetmask : PSFDSet) (obj : ObjId) (func errfunc : PSSelectCallback) (timeout : ℤ)
  | remove (fd : ℤ)
deriving DecidableEq, Repr

/-- What the native code of the sockets reads and writes; `log` and `selects` have the
system calls and the calls of the select functions, the latest first. -/
structure Process where
  objs : ObjId → ObjState
  registry : Registry
  log : List SysCall
  selects : List SelectUse := []

namespace Process

/-- No object, no event, no system call. -/
def start : Process := ⟨fun _ => .unborn, ∅, [], []⟩

/-- The private data of a live `TCPSocket`. -/
def tcp? (p : Process) (o : ObjId) : Option TCPSocket := (p.objs o).tcp?

/-- The private data of a live `UDPSocket`. -/
def udp? (p : Process) (o : ObjId) : Option UDPSocket := (p.objs o).udp?

/-- The `fd` field of the private data of a live object. -/
def fdOf (p : Process) (o : ObjId) : Option ℤ := (p.objs o).fd

/-- The object was made and not finalised. -/
def isLive (p : Process) (o : ObjId) : Bool :=
  match p.objs o with
  | .live _ => true
  | _ => false

/-- A live `TCPSocket`. -/
def isTcp (p : Process) (o : ObjId) : Bool :=
  match p.objs o with
  | .live (.tcpSocket _) => true
  | _ => false

/-- A live `UDPSocket`. -/
def isUdp (p : Process) (o : ObjId) : Bool :=
  match p.objs o with
  | .live (.udpSocket _) => true
  | _ => false

/-- Issue a system call. -/
def sys (p : Process) (c : SysCall) : Process := { p with log := c :: p.log }

/-- The kernel's answer to a call on a descriptor: it never succeeds on one that is
not open, whatever the outside would answer. -/
def answer (p : Process) (fd : ℤ) (ok : Bool) : Bool := (openedBy p.log fd).isSome && ok

/-- What `socket` may return: -1, or a descriptor that is not open. -/
def Fresh (p : Process) (fd : ℤ) : Prop := fd = -1 ∨ 0 ≤ fd ∧ openedBy p.log fd = none

instance (p : Process) (fd : ℤ) : Decidable (p.Fresh fd) := inferInstanceAs (Decidable (_ ∨ _))

/-- Store to an object. -/
def setObj (p : Process) (o : ObjId) (s : ObjState) : Process :=
  { p with objs := Function.update p.objs o s }

/-- Store to the private data of a `TCPSocket`. -/
def setTcp (p : Process) (o : ObjId) (tcp : TCPSocket) : Process :=
  p.setObj o (.live (.tcpSocket (some tcp)))

/-- Store to the private data of a `UDPSocket`. -/
def setUdp (p : Process) (o : ObjId) (udp : UDPSocket) : Process :=
  p.setObj o (.live (.udpSocket (some udp)))

/-- `ps_AddSelect` on the map, given whether its `JS_malloc` succeeds; `none` is
`JS_FALSE`. The call is recorded. On the list it is `SelectHeap.psAddSelect`. Source:
lines 339-381 of `js/src/ext/psselect.c`. -/
def psAddSelect (p : Process) (fd : ℤ) (fdsetmask : PSFDSet) (obj : ObjId)
    (func errfunc : PSSelectCallback) (timeout : ℤ) (mem : Bool) : Option Process :=
  if mem then
    some { p with
      registry := p.registry.insert fd ⟨fdsetmask, obj, func, errfunc, addTimeout timeout⟩
      selects := .add fd fdsetmask obj func errfunc timeout :: p.selects }
  else none

/-- `ps_RemoveSelect` on the map: the event of the descriptor goes. The call is recorded.
On the list it is `SelectHeap.psRemoveSelect`, which unlinks no event but the head.
Source: lines 383-404 of `js/src/ext/psselect.c`. -/
def psRemoveSelect (p : Process) (fd : ℤ) : Process :=
  { p with registry := p.registry.erase fd, selects := .remove fd :: p.selects }

section Fields

variable (p : Process) (o q : ObjId) (fd : ℤ) (c : SysCall) (tcp : TCPSocket) (udp : UDPSocket)
  (s : ObjState)

@[simp] theorem sys_registry : (p.sys c).registry = p.registry := rfl
@[simp] theorem sys_log : (p.sys c).log = c :: p.log := rfl
@[simp] theorem sys_selects : (p.sys c).selects = p.selects := rfl
@[simp] theorem setObj_log : (p.setObj o s).log = p.log := rfl
@[simp] theorem setObj_objs_self : (p.setObj o s).objs o = s := Function.update_self ..
@[simp] theorem setTcp_registry : (p.setTcp o tcp).registry = p.registry := rfl
@[simp] theorem setTcp_log : (p.setTcp o tcp).log = p.log := rfl
@[simp] theorem setTcp_selects : (p.setTcp o tcp).selects = p.selects := rfl
@[simp] theorem setUdp_registry : (p.setUdp o udp).registry = p.registry := rfl
@[simp] theorem psRemoveSelect_log : (p.psRemoveSelect fd).log = p.log := rfl
@[simp] theorem psRemoveSelect_selects :
    (p.psRemoveSelect fd).selects = .remove fd :: p.selects := rfl
@[simp] theorem psRemoveSelect_registry :
    (p.psRemoveSelect fd).registry = p.registry.erase fd := rfl
@[simp] theorem setTcp_objs_self : (p.setTcp o tcp).objs o = .live (.tcpSocket (some tcp)) :=
  Function.update_self ..
@[simp] theorem setUdp_objs_self : (p.setUdp o udp).objs o = .live (.udpSocket (some udp)) :=
  Function.update_self ..

variable {p o q}

/-- The other objects are as they were. -/
theorem setObj_objs_ne (h : q ≠ o) : (p.setObj o s).objs q = p.objs q := Function.update_of_ne h ..

variable {tcp udp}

@[simp] theorem setTcp_tcp? : (p.setTcp o tcp).tcp? o = some tcp := by
  rw [tcp?, setTcp_objs_self]
  rfl

/-- A `UDPSocket` is no `TCPSocket`. -/
theorem tcp?_of_udpSocket {priv : Option UDPSocket} (h : p.objs o = .live (.udpSocket priv)) :
    p.tcp? o = none := by
  rw [tcp?, h]
  rfl

/-- An object with the data of a `TCPSocket` is one. -/
theorem objs_of_tcp? (h : p.tcp? o = some tcp) : p.objs o = .live (.tcpSocket (some tcp)) :=
  ObjState.eq_of_tcp? h

/-- An object with the data of a `UDPSocket` is one. -/
theorem objs_of_udp? (h : p.udp? o = some udp) : p.objs o = .live (.udpSocket (some udp)) :=
  ObjState.eq_of_udp? h

/-- The descriptor of a `TCPSocket` is in its data. -/
theorem fdOf_of_tcp? (h : p.tcp? o = some tcp) : p.fdOf o = some tcp.fd := by
  simp [fdOf, objs_of_tcp? h, ObjState.fd]

/-- The descriptor of a `UDPSocket` is in its data. -/
theorem fdOf_of_udp? (h : p.udp? o = some udp) : p.fdOf o = some udp.fd := by
  simp [fdOf, objs_of_udp? h, ObjState.fd]

variable {fd}

/-- An object with a descriptor is live. -/
theorem isLive_of_fdOf (h : p.fdOf o = some fd) : p.isLive o = true := by
  unfold fdOf at h
  unfold isLive
  cases hs : p.objs o with
  | live _ => rfl
  | _ =>
      rw [hs] at h
      cases h

end Fields

end Process
end ProntoScript
