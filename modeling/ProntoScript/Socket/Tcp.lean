/-
# `TCPSocket`

`js/src/ext/pstcpsocket.c`, function by function.  Each function takes the
process, the object it is called on and the answers of the outside (the system
calls, the resolver, the allocators) in the order the code asks for them, and
returns the process it leaves with what it returns.  Lists of answers are
consumed by loops; `none` says that the answers are not those of a whole call, or
that the call ends in a null dereference.
-/

import ProntoScript.Socket.Process

namespace ProntoScript

/-- The handler properties of a socket. -/
inductive Handler
  | onConnect
  | onData
  | onClose
  | onIOError
deriving DecidableEq, Repr

/-- The properties of a `TCPSocket` by tiny id. Source: lines 95-101 of
`js/src/ext/pstcpsocket.c`. -/
inductive TCPSocketTinyId
  | connected
  | handler (h : Handler)
deriving DecidableEq, Repr

/-- A call of `TCPSocket_Invoke` or `UDPSocket_Invoke`: which handler, the value stored
for it and the arguments. Source: lines 404-436 of `js/src/ext/pstcpsocket.c`. -/
structure Invocation where
  handler : Handler
  func : JSVal
  argv : List JSVal
deriving DecidableEq, Repr

/-- How a select callback ends: with a call of a handler, silently, or after
reporting an error. -/
inductive CallbackExit
  | invoke (inv : Invocation)
  | silent
  | reported (e : ErrorReport)
deriving DecidableEq, Repr

/-- The field of a handler. -/
def TCPSocket.handler (tcp : TCPSocket) : Handler → JSVal
  | .onConnect => tcp.onConnect
  | .onData => tcp.onData
  | .onClose => tcp.onClose
  | .onIOError => tcp.onIOError

/-- Store to the field of a handler. -/
def TCPSocket.setHandler (tcp : TCPSocket) (v : JSVal) : Handler → TCPSocket
  | .onConnect => { tcp with onConnect := v }
  | .onData => { tcp with onData := v }
  | .onClose => { tcp with onClose := v }
  | .onIOError => { tcp with onIOError := v }

/-- `TCPSocket_New`, given whether `JS_malloc` succeeds. Source: lines 148-164 of
`js/src/ext/pstcpsocket.c`. -/
def tcpSocketNew (blocking mem : Bool) : Option TCPSocket :=
  if mem then some ⟨blocking, .void, .void, .void, .void, -1, .unconnected⟩ else none

/-- The optional argument of the constructor.  A missing argument reads as
`undefined`: the class has a constructor of one parameter. -/
def tcpSocketBlocking (argv : List JSVal) : Bool :=
  match argv.headD .void with
  | .int i => i != 0
  | .double bits => doubleToInt bits != 0
  | .boolean b => b
  | _ => false

/-- `TCPSocket_CT`, for a new object. Source: lines 453-494 of `js/src/ext/pstcpsocket.c`. -/
def tcpSocketCT (p : Process) (obj : ObjId) (argv : List JSVal) (mem : Bool) : Process × Native :=
  (p.setObj obj (.live (.tcpSocket (tcpSocketNew (tcpSocketBlocking argv) mem))), .ok .void)

/-- `TCPSocket_GetProperty`. Source: lines 176-214 of `js/src/ext/pstcpsocket.c`. -/
def tcpSocketGetProperty (p : Process) (obj : ObjId) (slot : TCPSocketTinyId) (vp : JSVal) :
    JSVal :=
  match p.tcp? obj with
  | none => vp
  | some tcp =>
      match slot with
      | .connected => .boolean (decide (tcp.state = .connected))
      | .handler h => tcp.handler h

/-- `TCPSocket_SetProperty`: only functions are stored.  The private data is not checked
before the store. Source: lines 216-257 of `js/src/ext/pstcpsocket.c`. -/
def tcpSocketSetProperty (p : Process) (obj : ObjId) (slot : TCPSocketTinyId) (vp : JSVal) :
    Option Process :=
  match slot with
  | .connected => some p
  | .handler h =>
      if vp.isFunction then (p.tcp? obj).map fun tcp => p.setTcp obj (tcp.setHandler vp h)
      else some p

/-! ### Connecting and closing -/

/-- The answer of `connect(2)`. -/
inductive ConnectReply
  | done
  | inProgress
  | failed (errmsg : String)
deriving DecidableEq, Repr

/-- What the outside answers during one call of `TCPSocket_Connect`. -/
structure ConnectReplies where
  strayPort : ℤ
  strayTimeout : ℤ
  inetAddr : UInt32
  lookup : Option (List UInt32)
  socket : ℤ
  getfl : Bool
  setfl : Bool
  connect : ConnectReply
  mem : Bool
deriving DecidableEq

/-- The bytes of a string argument up to the first NUL. -/
def peerBytes : JSVal → List UInt8
  | .string s => (getStringBytes s).takeWhile (· != 0)
  | _ => []

/-- The arguments of `connect`: the peer, the port and the timeout, 5000
milliseconds by default. -/
def tcpSocketConnectArgs (r : ConnectReplies) (argv : List JSVal) :
    Except (Option ErrorReport) (List UInt8 × ℕ × ℤ) :=
  match argv with
  | peer :: port :: rest =>
      if typeOfValue peer ≠ .string then .error (some ⟨.argumentNotString, none⟩)
      else if typeOfValue port ≠ .number then .error (some ⟨.argumentNotInt, none⟩)
      else
        match rest with
        | [timeout] =>
            if typeOfValue timeout ≠ .number then .error (some ⟨.argumentNotInt, none⟩)
            else .ok (peerBytes peer, toUint16 (jsvalToInt r.strayPort port),
              throughUint32 (jsvalToInt r.strayTimeout timeout))
        | _ => .ok (peerBytes peer, toUint16 (jsvalToInt r.strayPort port), 5000)
  | _ => .error (some ⟨.notEnoughArguments, none⟩)

/-- Only digits and dots. -/
def isDotted (peer : List UInt8) : Bool :=
  peer.all fun c => !((c < 0x30 || c > 0x39) && c != 0x2E)

/-- The IP address of the peer: `inet_addr` of a dotted string, else the first answer of
the lookup, 0 if it has none. Source: `TCPSocket_Connect`, lines 536-689 of
`js/src/ext/pstcpsocket.c`. -/
def peerAddress (inetAddr : UInt32) (lookup : Option (List UInt32)) (peer : List UInt8) :
    Except (Option ErrorReport) UInt32 :=
  if isDotted peer then .ok inetAddr
  else
    match lookup with
    | none => .error (some ⟨.failed, some "lookup error"⟩)
    | some infos => .ok (infos.headD 0)

/-- `shutdown(fd, SHUT_WR)` and `close(fd)`. -/
def Process.shut (p : Process) (obj : ObjId) (fd : ℤ) : Process :=
  (p.sys (.shutdown obj fd)).sys (.close obj fd)

/-- If already connected, close it first (lines 635-640). -/
def tcpSocketReset (p : Process) (obj : ObjId) (tcp : TCPSocket) : Process × TCPSocket :=
  if tcp.state = .connected then
    let tcp' := { tcp with state := .unconnected, fd := -1 }
    ((p.shut obj tcp.fd).setTcp obj tcp', tcp')
  else (p, tcp)

/-- The process once `connect` has closed an existing connection of the object. -/
def Process.reset (p : Process) (obj : ObjId) : Process :=
  match p.tcp? obj with
  | none => p
  | some tcp => (tcpSocketReset p obj tcp).1

/-- The two `fcntl` calls; `false` where one fails. -/
def setNonblocking (p : Process) (obj : ObjId) (fd : ℤ) (getfl setfl : Bool) : Process × Bool :=
  if p.answer fd getfl then
    ((p.sys (.fcntl obj fd)).sys (.fcntl obj fd), p.answer fd setfl)
  else (p.sys (.fcntl obj fd), false)

/-- `connect(2)` on the new descriptor and what follows (lines 664-688). -/
def tcpSocketStart (p : Process) (obj : ObjId) (tcp : TCPSocket) (ip : UInt32) (port : ℕ)
    (timeout : ℤ) (r : ConnectReplies) : Process × Native :=
  let ok := p.answer tcp.fd (decide (r.connect = .done))
  let inProgress := p.answer tcp.fd (decide (r.connect = .inProgress))
  let p := p.sys (.connect obj tcp.fd ip port ok)
  if ok then (p.setTcp obj { tcp with state := .connected }, .ok .void)
  else if !tcp.blocking && inProgress then
    let p := p.setTcp obj { tcp with state := .connecting }
    match p.psAddSelect tcp.fd PSFDSET_WRITE obj .tcpSocketSelectCallback
        .tcpSocketSelectErrorCallback timeout r.mem with
    | some p => (p, .ok .void)
    | none => (p, reportError .failed (some "asynchronous socket setup"))
  else
    match r.connect with
    | .failed errmsg => (p, reportError .failed (some errmsg))
    | _ => (p, reportError .failed (some "Bad file descriptor"))

/-- `TCPSocket_Connect` from the existing connection on (lines 632-689). -/
def tcpSocketConnectTo (p : Process) (obj : ObjId) (tcp : TCPSocket) (ip : UInt32) (port : ℕ)
    (timeout : ℤ) (r : ConnectReplies) : Process × Native :=
  let s := tcpSocketReset p obj tcp
  let tcp := { s.2 with fd := r.socket }
  let p := (s.1.sys (.socket obj tcp.fd)).setTcp obj tcp
  if tcp.blocking then tcpSocketStart p obj tcp ip port timeout r
  else
    let s := setNonblocking p obj tcp.fd r.getfl r.setfl
    if s.2 then tcpSocketStart s.1 obj tcp ip port timeout r
    else (s.1, reportError .socketError none)

/-- What `TCPSocket_Connect` does before it looks at the connection (lines 555-631):
the address, the port and the timeout, or the error of an argument or the lookup. -/
def connectTarget (r : ConnectReplies) (argv : List JSVal) :
    Except (Option ErrorReport) (UInt32 × ℕ × ℤ) :=
  match tcpSocketConnectArgs r argv with
  | .error e => .error e
  | .ok (peer, port, timeout) =>
      match peerAddress r.inetAddr r.lookup peer with
      | .error e => .error e
      | .ok ip => .ok (ip, port, timeout)

/-- `TCPSocket_Connect`. Source: lines 536-689 of `js/src/ext/pstcpsocket.c`. -/
def tcpSocketConnect (p : Process) (obj : ObjId) (argv : List JSVal) (r : ConnectReplies) :
    Process × Native :=
  match p.tcp? obj with
  | none => (p, .error none)
  | some tcp =>
      match connectTarget r argv with
      | .error e => (p, .error e)
      | .ok (ip, port, timeout) => tcpSocketConnectTo p obj tcp ip port timeout r

/-- `TCPSocket_Close`. Source: lines 701-718 of `js/src/ext/pstcpsocket.c`. -/
def tcpSocketClose (p : Process) (obj : ObjId) : Process × Native :=
  match p.tcp? obj with
  | none => (p, .error none)
  | some tcp =>
      if tcp.fd ≠ -1 then
        (((p.psRemoveSelect tcp.fd).shut obj tcp.fd).setTcp obj { tcp with fd := -1 }, .ok .void)
      else (p, .ok .void)

/-- `TCPSocket_DT` with `TCPSocket_Delete`: the object is finalised. Source:
`TCPSocket_DT` (lines 499-507), `TCPSocket_Delete` (lines 166-174) of
`js/src/ext/pstcpsocket.c`. -/
def tcpSocketDT (p : Process) (obj : ObjId) : Process :=
  match p.tcp? obj with
  | none => p.setObj obj .finalised
  | some tcp => (if tcp.fd ≠ -1 then p.shut obj tcp.fd else p).setObj obj .finalised

/-! ### Reading and writing -/

/-- The answer of `recv`. -/
inductive RecvReply
  | error
  | bytes (data : List UInt8)
deriving DecidableEq

/-- How many bytes it returns. -/
def RecvReply.length : RecvReply → ℕ
  | .error => 0
  | .bytes data => data.length

/-- How many bytes a round of the receive loop asks for. -/
def readLength (count nread : ℕ) : ℕ := if count - nread < 256 then count - nread else 256

/-- What a round of the receive loop does after `recv`: another round, or a return. -/
inductive ReadRound
  | again (nread : ℕ) (data : JSString)
  | done (result : Native)
deriving DecidableEq

/-- The round of the receive loop after `recv`; `none` where the chunk is not well
formed UTF-8, for then `JS_ConcatStrings` dereferences a null string. -/
def readRound (nread : ℕ) (data : JSString) : RecvReply → Option ReadRound
  | .error => some (.done (reportError .socketError none))
  | .bytes [] => some (.done (.ok (.string data)))
  | .bytes (b :: bs) =>
      (inflateString (b :: bs)).map fun s => .again (nread + (b :: bs).length) (data ++ s)

/-- The receive loop of `TCPSocket_Read`, over the answers of `recv`. -/
def readLoop (p : Process) (obj : ObjId) (fd : ℤ) (count nread : ℕ) (data : JSString) :
    List RecvReply → Option (Process × Native)
  | [] => if nread = count then some (p, .ok (.string data)) else none
  | r :: replies =>
      if nread = count then none
      else
        let r := if p.answer fd true then r else .error
        if readLength count nread < r.length then none
        else
          let p := p.sys (.recv obj fd (readLength count nread) false)
          match readRound nread data r with
          | none => none
          | some (.again nread data) => readLoop p obj fd count nread data replies
          | some (.done result) => if replies = [] then some (p, result) else none

/-- The argument of `read`: a `JSUint16`, 65535 by default.  A second argument is
not looked at. -/
def tcpSocketReadCount (stray : ℤ) (argv : List JSVal) : Except (Option ErrorReport) ℕ :=
  match argv with
  | [] => .ok 65535
  | count :: _ =>
      if typeOfValue count ≠ .number then .error (some ⟨.argumentNotString, none⟩)
      else .ok (toUint16 (jsvalToInt stray count))

/-- `TCPSocket_Read`. Source: lines 745-822 of `js/src/ext/pstcpsocket.c`. -/
def tcpSocketRead (p : Process) (obj : ObjId) (argv : List JSVal) (stray : ℤ)
    (replies : List RecvReply) : Option (Process × Native) :=
  match p.tcp? obj with
  | none => some (p, .error none)
  | some tcp =>
      match tcpSocketReadCount stray argv with
      | .error e => some (p, .error e)
      | .ok count =>
          if tcp.state ≠ .connected then some (p, reportError .failed (some "not connected"))
          else readLoop p obj tcp.fd count 0 [] replies

/-- `TCPSocket_Write`, given what `send` returns.  The length is that of the string, the
bytes are those of its encoding; a string without encoding gives `send` a null pointer,
which it refuses. Source: lines 837-887 of `js/src/ext/pstcpsocket.c`. -/
def tcpSocketWrite (p : Process) (obj : ObjId) (argv : List JSVal) (sent : ℤ) : Process × Native :=
  match p.tcp? obj with
  | none => (p, .error none)
  | some tcp =>
      match argv with
      | [] => (p, reportError .notEnoughArguments none)
      | .string data :: _ =>
          if tcp.state ≠ .connected then (p, reportError .failed (some "not connected"))
          else
            let nwritten := if p.answer tcp.fd (deflateString data).isSome then sent else -1
            let p := p.sys (.send obj tcp.fd ((getStringBytes data).take data.length) nwritten)
            if nwritten = -1 then (p, reportError .socketError none) else (p, .ok .void)
      | _ :: _ => (p, reportError .argumentNotString none)

/-! ### The select callbacks -/

/-- The answer of `recv(fd, &dummy, 1, MSG_PEEK)`. -/
inductive PeekReply
  | closed
  | failed
  | ready
deriving DecidableEq, Repr

/-- What the outside answers during one call of a `TCPSocket` select callback: the
kernel, the text of `errno`, and the allocators of `JS_NewStringCopyZ` and
`ps_AddSelect`. -/
structure TcpCallbackReplies where
  peername : Bool
  peek : PeekReply
  errmsg : String
  str : Bool
  mem : Bool
deriving DecidableEq, Repr

/-- The branches for a failed `getpeername` and a failed peek: not triggered again,
unconnected, `onIOError` with the text of `errno`. -/
def tcpSocketFail (p : Process) (obj : ObjId) (tcp : TCPSocket) (r : TcpCallbackReplies) :
    Process × CallbackExit :=
  let p := (p.psRemoveSelect tcp.fd).setTcp obj { tcp with state := .unconnected }
  if r.str then (p, .invoke ⟨.onIOError, tcp.onIOError, [.string (asciiString r.errmsg)]⟩)
  else (p, .silent)

/-- If connected, set up a selection without timeout, then invoke the handler. -/
def tcpSocketRearm (p : Process) (obj : ObjId) (tcp : TCPSocket) (inv : Invocation)
    (r : TcpCallbackReplies) : Process × CallbackExit :=
  match p.psAddSelect tcp.fd PSFDSET_READ obj .tcpSocketSelectCallback
      .tcpSocketSelectErrorCallback (-1) r.mem with
  | some p => (p, .invoke inv)
  | none => (p, .reported ⟨.failed, some "asynchronous socket setup"⟩)

/-- `TCPSocket_SelectCallback`, up to the call of the handler. Source: lines 262-373 of
`js/src/ext/pstcpsocket.c`. -/
def tcpSocketSelectCallback (p : Process) (obj : ObjId) (r : TcpCallbackReplies) :
    Process × CallbackExit :=
  match p.tcp? obj with
  | none => (p, .silent)
  | some tcp =>
      if tcp.blocking then (p.psRemoveSelect tcp.fd, .silent)
      else
        match tcp.state with
        | .unconnected => (p, .silent)
        | .connecting =>
            let ok := p.answer tcp.fd r.peername
            let p := p.sys (.getpeername obj tcp.fd ok)
            if ok then
              let tcp := { tcp with state := .connected }
              tcpSocketRearm (p.setTcp obj tcp) obj tcp ⟨.onConnect, tcp.onConnect, []⟩ r
            else tcpSocketFail p obj tcp r
        | .connected =>
            let npeek := if p.answer tcp.fd true then r.peek else .failed
            let p := p.sys (.recv obj tcp.fd 1 true)
            match npeek with
            | .closed =>
                (((p.psRemoveSelect tcp.fd).shut obj tcp.fd).setTcp obj
                  { tcp with state := .unconnected, fd := -1 }, .invoke ⟨.onClose, tcp.onClose, []⟩)
            | .failed => tcpSocketFail p obj tcp r
            | .ready => tcpSocketRearm p obj tcp ⟨.onData, tcp.onData, []⟩ r

/-- `TCPSocket_SelectErrorCallback`, up to the call of the handler; after it comes
`TCPSocket_Close`. Source: lines 378-399 of `js/src/ext/pstcpsocket.c`. -/
def tcpSocketSelectErrorCallback (p : Process) (obj : ObjId) : CallbackExit :=
  match p.tcp? obj with
  | none => .silent
  | some tcp => .invoke ⟨.onIOError, tcp.onIOError, []⟩

end ProntoScript
