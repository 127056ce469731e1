/-
# The engine running a script with sockets

`js_Execute` (`js/src/jsinterp.c`, lines 1430-1450) interprets a script and then
passes `ps_HandleSelect` until no events are left.  `System.include` and `eval`
call it again from a running script, JSUnit's `events()` (`js/src/ext/jsunit.c`,
line 429) passes `ps_HandleSelect` in the middle of one, and the handlers of the
sockets are script that runs inside a pass.  What is going on is a stack of
activations, the innermost first.

A step is one thing an activation does: a script calls a method of a socket, a
pass dispatches its next copy up to the call of the handler, a handler returns.
The label carries what the script asks for and what the outside answers.  The
collector may finalise an object between two steps, unless one of its handlers is
running, for then the object is on the stack of the engine.  What a dispatch to
an object already finalised does is not defined, and there is no such step.

`events` records, the latest first, what each `TCPSocket` was asked and which
handlers were called for it.

The registry is the map that `ps_AddSelect` and `ps_RemoveSelect` are meant to keep.
`ProntoScript.System.ListWorld` runs the same engine over their linked list, and says
where the two come to the same.
-/

import ProntoScript.Foundation.Transition
import ProntoScript.Select.Pass
import ProntoScript.Socket.Udp

namespace ProntoScript

/-- What the outside answers during the call of a select callback. -/
structure CallbackReplies where
  tcp : TcpCallbackReplies
  udp : List RecvfromReply
deriving DecidableEq

/-- The calls a script makes on sockets. -/
inductive ScriptCall
  | newTCPSocket (obj : ObjId) (argv : List JSVal) (mem : Bool)
  | newUDPSocket (obj : ObjId) (argv : List JSVal) (r : UdpReplies)
  | setTCPSocket (obj : ObjId) (slot : TCPSocketTinyId) (vp : JSVal)
  | setUDPSocket (obj : ObjId) (slot : UDPSocketTinyId) (vp : JSVal)
  | connect (obj : ObjId) (argv : List JSVal) (r : ConnectReplies)
  | close (obj : ObjId)
  | read (obj : ObjId) (argv : List JSVal) (stray : ℤ) (replies : List RecvReply)
  | write (obj : ObjId) (argv : List JSVal) (sent : ℤ)
  | udpClose (obj : ObjId)
  | udpSend (obj : ObjId) (argv : List JSVal) (r : SendReplies)
deriving DecidableEq

/-- What happened to a `TCPSocket`: `connect` returned, `close` returned, or a
handler was called. -/
inductive TcpEvent
  | connect (obj : ObjId) (ok : Bool)
  | close (obj : ObjId)
  | handler (obj : ObjId) (h : Handler)
deriving DecidableEq, Repr

/-- A call of a script: the process it leaves and what it says about `TCPSocket`s.
Methods are called on objects of their class, and constructors on new objects. -/
def ScriptCall.exec (p : Process) : ScriptCall → Option (Process × List TcpEvent)
  | newTCPSocket obj argv mem =>
      if p.objs obj = .unborn then some ((tcpSocketCT p obj argv mem).1, []) else none
  | newUDPSocket obj argv r =>
      if p.objs obj = .unborn ∧ p.Fresh r.socket then
        (udpSocketCT p obj argv r).map fun q => (q.1, [])
      else none
  | setTCPSocket obj slot vp =>
      if p.isTcp obj then (tcpSocketSetProperty p obj slot vp).map fun q => (q, []) else none
  | setUDPSocket obj slot vp =>
      if p.isUdp obj then (udpSocketSetProperty p obj slot vp).map fun q => (q, []) else none
  | connect obj argv r =>
      if p.isTcp obj ∧ (p.reset obj).Fresh r.socket then
        let q := tcpSocketConnect p obj argv r
        some (q.1, [.connect obj q.2.isOk])
      else none
  | close obj => if p.isTcp obj then some ((tcpSocketClose p obj).1, [.close obj]) else none
  | read obj argv stray replies =>
      if p.isTcp obj then (tcpSocketRead p obj argv stray replies).map fun q => (q.1, []) else none
  | write obj argv sent =>
      if p.isTcp obj then some ((tcpSocketWrite p obj argv sent).1, []) else none
  | udpClose obj => if p.isUdp obj then some ((udpSocketClose p obj).1, []) else none
  | udpSend obj argv r => if p.isUdp obj then some ((udpSocketSend p obj argv r).1, []) else none

/-- A call of a script, inverted: what it needs and the native function it runs. -/
inductive ScriptCall.Runs (p : Process) : ScriptCall → Process × List TcpEvent → Prop
  | newTCPSocket (obj : ObjId) (argv : List JSVal) (mem : Bool) (hnew : p.objs obj = .unborn) :
      Runs p (.newTCPSocket obj argv mem) ((tcpSocketCT p obj argv mem).1, [])
  | newUDPSocket (obj : ObjId) (argv : List JSVal) (r : UdpReplies) (q : Process × Native)
      (hnew : p.objs obj = .unborn ∧ p.Fresh r.socket) (hq : udpSocketCT p obj argv r = some q) :
      Runs p (.newUDPSocket obj argv r) (q.1, [])
  | setTCPSocket (obj : ObjId) (slot : TCPSocketTinyId) (vp : JSVal) (q : Process)
      (hobj : p.isTcp obj = true) (hq : tcpSocketSetProperty p obj slot vp = some q) :
      Runs p (.setTCPSocket obj slot vp) (q, [])
  | setUDPSocket (obj : ObjId) (slot : UDPSocketTinyId) (vp : JSVal) (q : Process)
      (hobj : p.isUdp obj = true) (hq : udpSocketSetProperty p obj slot vp = some q) :
      Runs p (.setUDPSocket obj slot vp) (q, [])
  | connect (obj : ObjId) (argv : List JSVal) (r : ConnectReplies)
      (hobj : p.isTcp obj = true ∧ (p.reset obj).Fresh r.socket) :
      Runs p (.connect obj argv r) ((tcpSocketConnect p obj argv r).1,
        [.connect obj (tcpSocketConnect p obj argv r).2.isOk])
  | close (obj : ObjId) (hobj : p.isTcp obj = true) :
      Runs p (.close obj) ((tcpSocketClose p obj).1, [.close obj])
  | read (obj : ObjId) (argv : List JSVal) (stray : ℤ) (replies : List RecvReply)
      (q : Process × Native) (hobj : p.isTcp obj = true)
      (hq : tcpSocketRead p obj argv stray replies = some q) :
      Runs p (.read obj argv stray replies) (q.1, [])
  | write (obj : ObjId) (argv : List JSVal) (sent : ℤ) (hobj : p.isTcp obj = true) :
      Runs p (.write obj argv sent) ((tcpSocketWrite p obj argv sent).1, [])
  | udpClose (obj : ObjId) (hobj : p.isUdp obj = true) :
      Runs p (.udpClose obj) ((udpSocketClose p obj).1, [])
  | udpSend (obj : ObjId) (argv : List JSVal) (r : SendReplies) (hobj : p.isUdp obj = true) :
      Runs p (.udpSend obj argv r) ((udpSocketSend p obj argv r).1, [])

/-- A call that goes through runs native code of its object. -/
theorem ScriptCall.exec_runs {p : Process} {c : ScriptCall} {q : Process × List TcpEvent}
    (h : c.exec p = some q) : c.Runs p q := by
  cases c with
  | newTCPSocket obj argv mem =>
      dsimp only [exec] at h
      split_ifs at h with hnew
      cases h
      exact .newTCPSocket obj argv mem hnew
  | newUDPSocket obj argv r =>
      dsimp only [exec] at h
      split_ifs at h with hnew
      obtain ⟨q, hq, rfl⟩ := Option.map_eq_some_iff.1 h
      exact .newUDPSocket obj argv r q hnew hq
  | setTCPSocket obj slot vp =>
      dsimp only [exec] at h
      split_ifs at h with hobj
      obtain ⟨q, hq, rfl⟩ := Option.map_eq_some_iff.1 h
      exact .setTCPSocket obj slot vp q hobj hq
  | setUDPSocket obj slot vp =>
      dsimp only [exec] at h
      split_ifs at h with hobj
      obtain ⟨q, hq, rfl⟩ := Option.map_eq_some_iff.1 h
      exact .setUDPSocket obj slot vp q hobj hq
  | connect obj argv r =>
      dsimp only [exec] at h
      split_ifs at h with hobj
      cases h
      exact .connect obj argv r hobj
  | close obj =>
      dsimp only [exec] at h
      split_ifs at h with hobj
      cases h
      exact .close obj hobj
  | read obj argv stray replies =>
      dsimp only [exec] at h
      split_ifs at h with hobj
      obtain ⟨q, hq, rfl⟩ := Option.map_eq_some_iff.1 h
      exact .read obj argv stray replies q hobj hq
  | write obj argv sent =>
      dsimp only [exec] at h
      split_ifs at h with hobj
      cases h
      exact .write obj argv sent hobj
  | udpClose obj =>
      dsimp only [exec] at h
      split_ifs at h with hobj
      cases h
      exact .udpClose obj hobj
  | udpSend obj argv r =>
      dsimp only [exec] at h
      split_ifs at h with hobj
      cases h
      exact .udpSend obj argv r hobj

/-! ### The event loop -/

/-- The copy is of an event of a `TCPSocket`. -/
def PSSelectCallback.isTcp : PSSelectCallback → Bool
  | .tcpSocketSelectCallback | .tcpSocketSelectErrorCallback => true
  | _ => false

/-- The callback of a copy, called on its object. -/
def Dispatch.call (d : Dispatch) (p : Process) (r : CallbackReplies) :
    Option (Process × CallbackExit) :=
  match d.callback with
  | .tcpSocketSelectCallback => some (tcpSocketSelectCallback p d.obj r.tcp)
  | .tcpSocketSelectErrorCallback => some (p, tcpSocketSelectErrorCallback p d.obj)
  | .udpSocketSelectCallback => udpSocketSelectCallback p d.obj r.udp
  | .udpSocketSelectErrorCallback => some (p, udpSocketSelectErrorCallback p d.obj)

/-- What the callback does after its handler returned: the error callbacks close the
socket. -/
def Dispatch.finish (d : Dispatch) (p : Process) : Process :=
  match d.callback with
  | .tcpSocketSelectErrorCallback => (tcpSocketClose p d.obj).1
  | .udpSocketSelectErrorCallback => (udpSocketClose p d.obj).1
  | _ => p

/-- The call of a handler, if the callback made one for a `TCPSocket`. -/
def Dispatch.event (d : Dispatch) : CallbackExit → List TcpEvent
  | .invoke inv => if d.callback.isTcp then [.handler d.obj inv.handler] else []
  | _ => []

/-- What the engine is in the middle of. -/
inductive Activation
  | interpreting
  | draining
  | events
  | pass (pending : List Dispatch)
  | handler (d : Dispatch) (inv : Invocation)
deriving DecidableEq

/-- A script is running: that of a `js_Execute`, or a handler. -/
def Activation.isScript : Activation → Bool
  | .interpreting => true
  | .handler _ inv => inv.func.isFunction
  | _ => false

/-- A loop around `ps_HandleSelect`. -/
def Activation.isLoop : Activation → Bool
  | .draining | .events => true
  | _ => false

/-- The activation a callback leaves: the call of its handler, if it made one. -/
def Dispatch.enter (d : Dispatch) : CallbackExit → List Activation
  | .invoke inv => [.handler d inv]
  | _ => []

/-- The activation is the call of a handler of the object. -/
def Activation.isHandlerOf (o : ObjId) : Activation → Bool
  | .handler d _ => d.obj == o
  | _ => false

/-- The process, what it is in the middle of, and what happened to its `TCPSocket`s. -/
structure World where
  proc : Process
  stack : List Activation
  events : List TcpEvent

/-- What can happen next. -/
inductive Label
  | execute
  | nest
  | interpreted (ok : Bool)
  | events
  | handleSelect (a : SelectAnswer)
  | dispatch (r : CallbackReplies)
  | passed
  | returned
  | script (c : ScriptCall)
  | finalise (obj : ObjId)
deriving DecidableEq

namespace World

/-- Nothing has happened. -/
def start : World := ⟨.start, [], []⟩

/-- The innermost activation is a running script. -/
def scriptRuns (w : World) : Bool := (w.stack.head?.map Activation.isScript).getD false

/-- The next step; `none` where the label does not fit. -/
def step (w : World) : Label → Option World
  | .execute => if w.stack = [] then some { w with stack := [.interpreting] } else none
  | .nest => if w.scriptRuns then some { w with stack := .interpreting :: w.stack } else none
  | .interpreted ok =>
      match w.stack with
      | .interpreting :: rest => some { w with stack := if ok then .draining :: rest else rest }
      | _ => none
  | .events => if w.scriptRuns then some { w with stack := .events :: w.stack } else none
  | .handleSelect a =>
      match w.stack with
      | loop :: rest =>
          if loop.isLoop then
            match psHandleSelect w.proc.registry a with
            | none => some { w with stack := rest }
            | some (reg, pending) =>
                some { w with
                  proc := { w.proc with registry := reg }, stack := .pass pending :: loop :: rest }
          else none
      | [] => none
  | .dispatch r =>
      match w.stack with
      | .pass (d :: pending) :: rest =>
          if w.proc.isLive d.obj then
            match d.call w.proc r with
            | none => none
            | some (p, exit) =>
                some ⟨p, d.enter exit ++ .pass pending :: rest, d.event exit ++ w.events⟩
          else none
      | _ => none
  | .passed =>
      match w.stack with
      | .pass [] :: rest => some { w with stack := rest }
      | _ => none
  | .returned =>
      match w.stack with
      | .handler d _ :: rest => some { w with proc := d.finish w.proc, stack := rest }
      | _ => none
  | .script c =>
      if w.scriptRuns then
        (c.exec w.proc).map fun q => { w with proc := q.1, events := q.2 ++ w.events }
      else none
  | .finalise o =>
      if w.proc.isLive o ∧ w.stack.any (Activation.isHandlerOf o) = false then
        some { w with
          proc := if w.proc.isTcp o then tcpSocketDT w.proc o else udpSocketDT w.proc o }
      else none

/-- The steps as a relation. -/
def Step (w : World) (l : Label) (w' : World) : Prop := w.step l = some w'

/-- Running the labels one after the other gives a run. -/
theorem run_of_foldlM {w w' : World} {ls : List Label} (h : ls.foldlM step w = some w') :
    Transition.Run Step w ls w' :=
  Transition.Run.of_foldlM h

end World

/-- The object a script calls. -/
def ScriptCall.obj : ScriptCall → ObjId
  | newTCPSocket o _ _ | newUDPSocket o _ _ | setTCPSocket o _ _ | setUDPSocket o _ _
  | connect o _ _ | close o | read o _ _ _ | write o _ _ | udpClose o | udpSend o _ _ => o

namespace World

/-- The object whose native code a step runs, if it runs any. -/
def actor (w : World) : Label → Option ObjId
  | .dispatch _ =>
      match w.stack with
      | .pass (d :: _) :: _ => some d.obj
      | _ => none
  | .returned =>
      match w.stack with
      | .handler d _ :: _ => some d.obj
      | _ => none
  | .script c => some c.obj
  | .finalise o => some o
  | _ => none

/-! ### What each step does -/

section Inversion

variable {w w' : World} {l : Label}

/-- The outermost execution starts with nothing active. -/
theorem step_execute (h : Step w .execute w') :
    w.stack = [] ∧ w' = { w with stack := [.interpreting] } := by
  dsimp only [Step, step] at h
  split_ifs at h with hstack
  exact ⟨hstack, (Option.some.inj h).symm⟩

/-- A nested execution starts where a script runs. -/
theorem step_nest (h : Step w .nest w') :
    w.scriptRuns = true ∧ w' = { w with stack := .interpreting :: w.stack } := by
  dsimp only [Step, step] at h
  split_ifs at h with hruns
  exact ⟨hruns, (Option.some.inj h).symm⟩

/-- **A script that has been interpreted** leaves its execution, to handle the events if
it succeeded. -/
theorem step_interpreted {ok : Bool} (h : Step w (.interpreted ok) w') :
    ∃ rest, w.stack = .interpreting :: rest ∧
      w' = { w with stack := if ok then .draining :: rest else rest } := by
  dsimp only [Step, step] at h
  split at h
  · rename_i rest hstack
    exact ⟨rest, hstack, (Option.some.inj h).symm⟩
  · cases h

/-- `events()` is called where a script runs. -/
theorem step_callEvents (h : Step w .events w') :
    w.scriptRuns = true ∧ w' = { w with stack := .events :: w.stack } := by
  dsimp only [Step, step] at h
  split_ifs at h with hruns
  exact ⟨hruns, (Option.some.inj h).symm⟩

/-- A pass ends when all its copies are called. -/
theorem step_passed (h : Step w .passed w') :
    ∃ rest, w.stack = .pass [] :: rest ∧ w' = { w with stack := rest } := by
  dsimp only [Step, step] at h
  split at h
  · rename_i rest hstack
    exact ⟨rest, hstack, (Option.some.inj h).symm⟩
  · cases h

/-- **A dispatch** calls the callback of the first copy of the pass, of an object that is
live, and may enter a handler. -/
theorem step_dispatch {r : CallbackReplies} (h : Step w (.dispatch r) w') :
    ∃ d pending rest p exit, w.stack = .pass (d :: pending) :: rest ∧
      w.proc.isLive d.obj = true ∧ d.call w.proc r = some (p, exit) ∧
      w' = ⟨p, d.enter exit ++ .pass pending :: rest, d.event exit ++ w.events⟩ := by
  dsimp only [Step, step] at h
  split at h
  · rename_i d pending rest hstack
    split_ifs at h with hlive
    split at h
    · cases h
    · rename_i p exit hcall
      exact ⟨d, pending, rest, p, exit, hstack, hlive, hcall, (Option.some.inj h).symm⟩
  · cases h

/-- A handler returns, and what follows it in the callback is done. -/
theorem step_returned (h : Step w .returned w') :
    ∃ d inv rest, w.stack = .handler d inv :: rest ∧
      w' = { w with proc := d.finish w.proc, stack := rest } := by
  dsimp only [Step, step] at h
  split at h
  · rename_i d inv rest hstack
    exact ⟨d, inv, rest, hstack, (Option.some.inj h).symm⟩
  · cases h

/-- A method is called where a script runs. -/
theorem step_script {c : ScriptCall} (h : Step w (.script c) w') :
    w.scriptRuns = true ∧ ∃ q, c.exec w.proc = some q ∧
      w' = { w with proc := q.1, events := q.2 ++ w.events } := by
  dsimp only [Step, step] at h
  split_ifs at h with hruns
  obtain ⟨q, hq, rfl⟩ := Option.map_eq_some_iff.1 h
  exact ⟨hruns, q, hq, rfl⟩

/-- A finaliser runs for a live object none of whose handlers is running. -/
theorem step_finalise {o : ObjId} (h : Step w (.finalise o) w') :
    w.proc.isLive o = true ∧ w.stack.any (Activation.isHandlerOf o) = false ∧
      w' = { w with
        proc := if w.proc.isTcp o then tcpSocketDT w.proc o else udpSocketDT w.proc o } := by
  dsimp only [Step, step] at h
  split_ifs at h with hlive
  · exact ⟨hlive.1, hlive.2, by rw [← Option.some.inj h, if_pos ‹_›]⟩
  · exact ⟨hlive.1, hlive.2, by rw [← Option.some.inj h, if_neg ‹_›]⟩

/-- **`ps_HandleSelect`** is called from a loop: it ends it where nothing is registered,
and starts a pass otherwise. -/
theorem step_handleSelect {a : SelectAnswer} (h : Step w (.handleSelect a) w') :
    ∃ loop rest, w.stack = loop :: rest ∧ loop.isLoop = true ∧
      ((w.proc.registry.entries = [] ∧ w' = { w with stack := rest }) ∨
        w.proc.registry.entries ≠ [] ∧ ∃ pending duration,
          psHandleSelect w.proc.registry a =
            some (w.proc.registry.updateTimeouts duration, pending) ∧
          w' = { w with
            proc := { w.proc with registry := w.proc.registry.updateTimeouts duration },
            stack := .pass pending :: loop :: rest }) := by
  dsimp only [Step, step] at h
  split at h
  · rename_i loop rest hstack
    split_ifs at h with hloop
    refine ⟨loop, rest, hstack, hloop, ?_⟩
    cases hpass : psHandleSelect w.proc.registry a with
    | none =>
        rw [hpass] at h
        exact Or.inl ⟨psHandleSelect_eq_none.1 hpass, (Option.some.inj h).symm⟩
    | some q =>
        rw [hpass] at h
        obtain ⟨reg, pending⟩ := q
        obtain ⟨hne, rfl⟩ := psHandleSelect_eq_some hpass
        exact Or.inr ⟨hne, pending, _, rfl, (Option.some.inj h).symm⟩
  · cases h

/-- The other steps only change the stack. -/
theorem step_control (h : Step w l w')
    (hl : match l with
      | .execute | .nest | .interpreted _ | .events | .passed => True
      | _ => False) : w'.proc = w.proc ∧ w'.events = w.events := by
  cases l with
  | execute =>
      obtain ⟨-, rfl⟩ := step_execute h
      exact ⟨rfl, rfl⟩
  | nest =>
      obtain ⟨-, rfl⟩ := step_nest h
      exact ⟨rfl, rfl⟩
  | interpreted ok =>
      obtain ⟨rest, -, rfl⟩ := step_interpreted h
      exact ⟨rfl, rfl⟩
  | events =>
      obtain ⟨-, rfl⟩ := step_callEvents h
      exact ⟨rfl, rfl⟩
  | passed =>
      obtain ⟨rest, -, rfl⟩ := step_passed h
      exact ⟨rfl, rfl⟩
  | _ => cases hl

/-- There is one copy a pass dispatches next. -/
theorem next_unique {d d' : Dispatch} {pending pending' : List Dispatch}
    {rest rest' : List Activation} (h : w.stack = .pass (d :: pending) :: rest)
    (h' : w.stack = .pass (d' :: pending') :: rest') : d = d' := by
  cases h.symm.trans h'
  rfl

/-- There is one handler that returns next. -/
theorem handler_unique {d d' : Dispatch} {inv inv' : Invocation} {rest rest' : List Activation}
    (h : w.stack = .handler d inv :: rest) (h' : w.stack = .handler d' inv' :: rest') :
    d = d' := by
  cases h.symm.trans h'
  rfl

end Inversion

end World
end ProntoScript
