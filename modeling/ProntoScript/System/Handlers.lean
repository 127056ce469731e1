/-
# The functions stored for the handlers

`onConnect`, `onData`, `onClose` and `onIOError` of the private data hold `undefined` or
a function.  The set hooks alone write them (`tcpSocketSetProperty_handlers`,
`udpSocketSetProperty_handlers`): the methods, the constructors and the select callbacks
leave the functions of every object as they are, and the finalisers drop those of
their own object.
-/

import ProntoScript.System.World

namespace ProntoScript

/-- The `JSObject *` of a function. -/
def JSVal.function? : JSVal → Option ℕ
  | .function f => some f
  | _ => none

/-- The handler property with the tiny id. -/
def UDPSocketTinyId.handler : UDPSocketTinyId → Handler
  | .onData => .onData
  | .onIOError => .onIOError

/-- The field of a handler. -/
def UDPSocket.handler (udp : UDPSocket) : Handler → JSVal
  | .onData => udp.onData
  | .onIOError => udp.onIOError
  | _ => .void

/-- The functions stored for the handlers of an object. -/
def ObjState.handlers : ObjState → Handler → Option ℕ
  | .live (.tcpSocket (some tcp)), k => (tcp.handler k).function?
  | .live (.udpSocket (some udp)), k => (udp.handler k).function?
  | _, _ => none

/-- The functions stored for the handlers. -/
def Process.handlers (p : Process) (o : ObjId) : Handler → Option ℕ := (p.objs o).handlers

/-- Store at one handler of one object. -/
def setAt {α : Type} (a : ObjId → Handler → α) (o : ObjId) (k : Handler) (x : α) (o' : ObjId)
    (k' : Handler) : α :=
  if o' = o ∧ k' = k then x else a o' k'

section

variable {p q : Process} {obj o : ObjId} {tcp tcp' : TCPSocket} {udp udp' : UDPSocket} {v : JSVal}
  {k k' : Handler}

/-! ### Stores to the private data -/

/-- The handlers of a `TCPSocket` are in its data. -/
theorem handlers_of_tcp? (h : p.tcp? obj = some tcp) :
    p.handlers obj k = (tcp.handler k).function? := by
  rw [Process.handlers, Process.objs_of_tcp? h]
  rfl

/-- The handlers of a `UDPSocket` are in its data. -/
theorem handlers_of_udp? (h : p.udp? obj = some udp) :
    p.handlers obj k = (udp.handler k).function? := by
  rw [Process.handlers, Process.objs_of_udp? h]
  rfl

/-- Only live objects have functions. -/
theorem handlers_of_dead (h : p.isLive o = false) : p.handlers o = fun _ => none := by
  unfold Process.isLive at h
  unfold Process.handlers
  cases hs : p.objs o with
  | live _ =>
      rw [hs] at h
      cases h
  | _ => rfl

end

/-! ### The methods of `TCPSocket` -/

section

variable {p : Process} {obj : ObjId} {tcp : TCPSocket} {argv : List JSVal}

end

/-! ### The methods of `UDPSocket` -/

section

variable {p : Process} {obj : ObjId} {udp : UDPSocket} {argv : List JSVal}

end

/-! ### The select callbacks -/

section

variable {p : Process} {obj : ObjId} {tcp : TCPSocket}

/-- After the registration the handler is called that was to be called. -/
theorem tcpSocketRearm_invoke {inv inv' : Invocation} {r : TcpCallbackReplies}
    (h : (tcpSocketRearm p obj tcp inv r).2 = .invoke inv') : inv' = inv := by
  unfold tcpSocketRearm at h
  split at h <;> cases h
  rfl

/-- After a failure it is one of the handlers of the socket. -/
theorem tcpSocketFail_invoke {inv : Invocation} {r : TcpCallbackReplies}
    (h : (tcpSocketFail p obj tcp r).2 = .invoke inv) : inv.func = tcp.handler inv.handler := by
  unfold tcpSocketFail at h
  split_ifs at h
  cases h
  rfl

/-- **What the select callback calls** is what the handler property last held, if that is
a function. -/
theorem tcpSocketSelectCallback_invoke {inv : Invocation} {r : TcpCallbackReplies}
    (h : (tcpSocketSelectCallback p obj r).2 = .invoke inv) :
    inv.func.function? = p.handlers obj inv.handler := by
  unfold tcpSocketSelectCallback at h
  cases ht : p.tcp? obj with
  | none =>
      rw [ht] at h
      cases h
  | some tcp =>
      rw [ht] at h
      rw [handlers_of_tcp? ht]
      dsimp only at h
      refine congrArg JSVal.function? ?_
      split at h
      · cases h
      · split at h
        · cases h
        · split at h
          · rw [tcpSocketRearm_invoke h]
            rfl
          · exact tcpSocketFail_invoke h
        · generalize (if p.answer tcp.fd true = true then r.peek else PeekReply.failed) = npeek at h
          cases npeek with
          | closed =>
              cases h
              rfl
          | failed => exact tcpSocketFail_invoke h
          | ready =>
              rw [tcpSocketRearm_invoke h]
              rfl

/-- The same for a `UDPSocket`. -/
theorem udpSocketSelectCallback_invoke {replies : List RecvfromReply} {q : Process}
    {inv : Invocation} (hq : udpSocketSelectCallback p obj replies = some (q, .invoke inv)) :
    inv.func.function? = p.handlers obj inv.handler := by
  unfold udpSocketSelectCallback at hq
  cases hu : p.udp? obj with
  | none =>
      rw [hu] at hq
      cases hq
  | some udp =>
      rw [hu] at hq
      rw [handlers_of_udp? hu]
      dsimp only at hq
      split at hq <;> cases hq
      rfl

/-- **A select callback calls what is stored** for the handler. -/
theorem Dispatch.call_invoke {d : Dispatch} {r : CallbackReplies} {q : Process} {inv : Invocation}
    (hq : d.call p r = some (q, .invoke inv)) :
    inv.func.function? = p.handlers d.obj inv.handler := by
  unfold call at hq
  split at hq
  · exact tcpSocketSelectCallback_invoke (congrArg Prod.snd (Option.some.inj hq))
  · have hexit := congrArg Prod.snd (Option.some.inj hq)
    dsimp only [tcpSocketSelectErrorCallback] at hexit
    split at hexit <;> cases hexit
    rename_i ht
    exact (handlers_of_tcp? (k := .onIOError) ht).symm
  · exact udpSocketSelectCallback_invoke hq
  · have hexit := congrArg Prod.snd (Option.some.inj hq)
    dsimp only [udpSocketSelectErrorCallback] at hexit
    split at hexit <;> cases hexit
    rename_i hu
    exact (handlers_of_udp? (k := .onIOError) hu).symm

end

/-! ### The calls of a script -/

/-- The handler property a call assigns to, with the value. -/
def ScriptCall.assigns : ScriptCall → Option (ObjId × Handler × JSVal)
  | setTCPSocket obj (.handler k) vp => some (obj, k, vp)
  | setUDPSocket obj slot vp => some (obj, slot.handler, vp)
  | _ => none

end ProntoScript
