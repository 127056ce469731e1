/-
# `UDPSocket`

`js/src/ext/psudpsocket.c`, function by function, with the conventions of
`TCPSocket`: the process, the object and the answers of the outside go in, the
process and the result come out, and `none` says that the answers are not those
of a whole call or that the call ends in a null dereference.

The constructor accepts what is not a number for a port and refuses numbers, and
it attaches the private data to the object in its last step only: until then,
and after every failure, the object has none.
-/

import ProntoScript.Socket.Tcp

namespace ProntoScript

/-- The properties of a `UDPSocket` by tiny id. Source: lines 87-90 of
`js/src/ext/psudpsocket.c`. -/
inductive UDPSocketTinyId
  | onData
  | onIOError
deriving DecidableEq, Repr

/-- `UDPSocket_New`, given whether `JS_malloc` succeeds. Source: lines 132-145 of
`js/src/ext/psudpsocket.c`. -/
def udpSocketNew (mem : Bool) : Option UDPSocket :=
  if mem then some ⟨.void, .void, -1, -1⟩ else none

/-- `UDPSocket_GetProperty`. Source: lines 156-185 of `js/src/ext/psudpsocket.c`. -/
def udpSocketGetProperty (p : Process) (obj : ObjId) (slot : UDPSocketTinyId) (vp : JSVal) :
    JSVal :=
  match p.udp? obj with
  | none => vp
  | some udp =>
      match slot with
      | .onData => udp.onData
      | .onIOError => udp.onIOError

/-- `UDPSocket_SetProperty`: only functions are stored.  The private data is not checked
before the store. Source: lines 187-216 of `js/src/ext/psudpsocket.c`. -/
def udpSocketSetProperty (p : Process) (obj : ObjId) (slot : UDPSocketTinyId) (vp : JSVal) :
    Option Process :=
  if vp.isFunction then
    (p.udp? obj).map fun udp =>
      match slot with
      | .onData => p.setUdp obj { udp with onData := vp }
      | .onIOError => p.setUdp obj { udp with onIOError := vp }
  else some p

/-! ### Construction and closing -/

/-- What the outside answers during one call of `UDPSocket_CT`. -/
structure UdpReplies where
  malloc : Bool
  strayPort : ℤ
  socket : ℤ
  bind : Bool
  getfl : Bool
  setfl : Bool
  mem : Bool
deriving DecidableEq, Repr

/-- `bind`, if a port has been specified. -/
def udpSocketBind (p : Process) (obj : ObjId) (udp : UDPSocket) (bind : Bool) : Process × Bool :=
  if udp.port ≠ -1 then (p.sys (.bind obj udp.fd udp.port.toNat), p.answer udp.fd bind)
  else (p, true)

/-- `UDPSocket_CT` from the `socket` call on (lines 390-442). -/
def udpSocketOpen (p : Process) (obj : ObjId) (udp : UDPSocket) (r : UdpReplies) :
    Process × Native :=
  let p := p.sys (.socket obj udp.fd)
  if udp.fd < 0 then (p, reportError .socketError none)
  else
    let s := udpSocketBind p obj udp r.bind
    if !s.2 then (s.1, reportError .socketError none)
    else
      let s := setNonblocking s.1 obj udp.fd r.getfl r.setfl
      if !s.2 then (s.1, reportError .socketError none)
      else
        match s.1.psAddSelect udp.fd PSFDSET_READ obj .udpSocketSelectCallback
            .udpSocketSelectErrorCallback (-1) r.mem with
        | none => (s.1, reportError .failed (some "asynchronous socket setup"))
        | some p => (p.setUdp obj udp, .ok .void)

/-- `UDPSocket_CT`, for a new object.  A missing argument reads as `undefined`: the class
has a constructor of one parameter. Source: lines 358-443 of `js/src/ext/psudpsocket.c`. -/
def udpSocketCT (p : Process) (obj : ObjId) (argv : List JSVal) (r : UdpReplies) :
    Option (Process × Native) :=
  let p := p.setObj obj (.live (.udpSocket none))
  let port := argv.headD .void
  if typeOfValue port ≠ .number then
    (udpSocketNew r.malloc).map fun udp =>
      udpSocketOpen p obj
        { udp with fd := r.socket, port := toUint16 (jsvalToInt r.strayPort port) } r
  else some (p, reportError .argumentNotInt none)

/-- `UDPSocket_Close`. Source: lines 468-484 of `js/src/ext/psudpsocket.c`. -/
def udpSocketClose (p : Process) (obj : ObjId) : Process × Native :=
  match p.udp? obj with
  | none => (p, .error none)
  | some udp =>
      if udp.fd ≠ -1 then
        (((p.psRemoveSelect udp.fd).sys (.close obj udp.fd)).setUdp obj { udp with fd := -1 },
          .ok .void)
      else (p, .ok .void)

/-- `UDPSocket_DT` with `UDPSocket_Delete`: the object is finalised. Source:
`UDPSocket_DT` (lines 448-456), `UDPSocket_Delete` (lines 147-154) of
`js/src/ext/psudpsocket.c`. -/
def udpSocketDT (p : Process) (obj : ObjId) : Process :=
  match p.udp? obj with
  | none => p.setObj obj .finalised
  | some udp => (if udp.fd ≠ -1 then p.sys (.close obj udp.fd) else p).setObj obj .finalised

/-! ### Sending -/

/-- What the outside answers during one call of `UDPSocket_Send`; `sent` is what
`sendto` returns. -/
structure SendReplies where
  strayPort : ℤ
  inetAddr : UInt32
  lookup : Option (List UInt32)
  sent : ℤ
deriving DecidableEq

/-- `UDPSocket_Send`. Source: lines 507-614 of `js/src/ext/psudpsocket.c`. -/
def udpSocketSend (p : Process) (obj : ObjId) (argv : List JSVal) (r : SendReplies) :
    Process × Native :=
  match p.udp? obj with
  | none => (p, .error none)
  | some udp =>
      match argv with
      | [.string data, peer, port] =>
          if typeOfValue peer ≠ .string then (p, reportError .argumentNotString none)
          else if typeOfValue port ≠ .number then (p, reportError .argumentNotInt none)
          else
            match peerAddress r.inetAddr r.lookup (peerBytes peer) with
            | .error e => (p, .error e)
            | .ok ip =>
                let nwritten := if p.answer udp.fd (deflateString data).isSome then r.sent else -1
                let p := p.sys (.sendto obj udp.fd ip (toUint16 (jsvalToInt r.strayPort port))
                  ((getStringBytes data).take data.length))
                if nwritten = -1 then (p, reportError .socketError none) else (p, .ok .void)
      | [_, _, _] => (p, reportError .argumentNotString none)
      | _ => (p, reportError .notEnoughArguments none)

/-! ### The select callbacks -/

/-- `struct in_addr`: the four octets in network order. -/
structure InAddr where
  octets : UInt8 × UInt8 × UInt8 × UInt8
deriving DecidableEq

/-- `inet_ntoa`. -/
def inetNtoa (addr : InAddr) : String :=
  match addr.octets with
  | (a, b, c, d) => ".".intercalate [toString a, toString b, toString c, toString d]

/-- The answer of `recvfrom(fd, buf, 256, …)`: nothing queued, an error, or what
fits in the buffer of a datagram, with its sender. -/
inductive RecvfromReply
  | again
  | error
  | datagram (data : List UInt8) (addr : InAddr) (port : ℕ)
deriving DecidableEq

/-- What the receive loop leaves: the data with the last sender, or an error. -/
abbrev Received := Except ErrorReport (JSString × InAddr × ℕ)

/-- The receive loop of `UDPSocket_SelectCallback`, over the answers of `recvfrom`; `none`
where a payload is not well formed UTF-8, for then `JS_ConcatStrings` dereferences a null
string. Source: lines 222-275 of `js/src/ext/psudpsocket.c`. -/
def receiveLoop (p : Process) (obj : ObjId) (fd : ℤ) (data : JSString) (addr : InAddr) (port : ℕ) :
    List RecvfromReply → Option (Process × Received)
  | [] => none
  | r :: replies =>
      let q := p.sys (.recvfrom obj fd 256)
      match if p.answer fd true then r else .error with
      | .again => if replies = [] then some (q, .ok (data, addr, port)) else none
      | .error => if replies = [] then some (q, .error ⟨.socketError, none⟩) else none
      | .datagram bytes addr port =>
          if 256 < bytes.length then none
          else
            match inflateString bytes with
            | none => none
            | some s => receiveLoop q obj fd (data ++ s) addr port replies

/-- `UDPSocket_SelectCallback`, up to the call of the handler. Source: lines 222-275 of
`js/src/ext/psudpsocket.c`. -/
def udpSocketSelectCallback (p : Process) (obj : ObjId) (replies : List RecvfromReply) :
    Option (Process × CallbackExit) :=
  match p.udp? obj with
  | none => some (p, .silent)
  | some udp =>
      match receiveLoop p obj udp.fd [] ⟨0, 0, 0, 0⟩ 0 replies with
      | none => none
      | some (p, .error e) => some (p, .reported e)
      | some (p, .ok (data, addr, port)) =>
          some (p, .invoke ⟨.onData, udp.onData,
            [.string data, .string (asciiString (inetNtoa addr)), .int port]⟩)

/-- `UDPSocket_SelectErrorCallback`, up to the call of the handler; after it comes
`UDPSocket_Close`. Source: lines 280-301 of `js/src/ext/psudpsocket.c`. -/
def udpSocketSelectErrorCallback (p : Process) (obj : ObjId) : CallbackExit :=
  match p.udp? obj with
  | none => .silent
  | some udp => .invoke ⟨.onIOError, udp.onIOError, []⟩

end ProntoScript
