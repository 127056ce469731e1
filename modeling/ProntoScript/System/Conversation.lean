/-
# The order of the handler calls

Between a `connect` that returned without an error and the next `connect`, the
handlers of a socket should be called in the order of a conversation: `onConnect`,
`onData` any number of times, then `onClose` or `onIOError`; or `onIOError` alone
(`Conforms`).  After `close` there should be none (`InOrder`).

The code does not see to that.  A pass calls the callbacks of copies whose events
are not registered any more; an event of a descriptor that the socket has given up
stays registered; the error callback calls `onIOError` before it closes the socket,
so that an event loop inside the handler finds the socket as it was; and a socket
may be connected without `onConnect`, when `connect(2)` completes at once or the
registration that follows `getpeername` cannot be allocated.  In the runs in which
none of this happens (`KeepsOrder`) every conversation is in order.

The proof follows each socket with a monitor (`Phase`), whose state and that of the
socket go together as long as the socket is registered (`Fits`).
-/

import ProntoScript.Foundation.Monitor
import ProntoScript.System.Effect

namespace ProntoScript

open Transition (Run Guarded)

/-! ### Conversations -/

/-- The object an event is about. -/
def TcpEvent.obj : TcpEvent → ObjId
  | .connect o _ | .close o | .handler o _ => o

/-- The handler of an object an event calls. -/
def TcpEvent.handlerOf (o : ObjId) : TcpEvent → Option Handler
  | .handler o' h => if o' = o then some h else none
  | _ => none

/-- The handlers of an object that were called, in the order of the calls. -/
def handlersOf (o : ObjId) (events : List TcpEvent) : List Handler :=
  events.reverse.filterMap (TcpEvent.handlerOf o)

/-- **The order of a conversation**, as far as it got. -/
def Conforms (hs : List Handler) : Prop :=
  (∃ n last, (last = .onClose ∨ last = .onIOError) ∧
    hs <+: .onConnect :: (List.replicate n .onData ++ [last])) ∨ hs <+: [.onIOError]

/-- **All conversations of a socket are in order**, and there is none after `close`. -/
structure InOrder (o : ObjId) (events : List TcpEvent) : Prop where
  conforms : ∀ later segment earlier, events = later ++ segment ++ .connect o true :: earlier →
    (∀ ok, .connect o ok ∉ segment) → Conforms (handlersOf o segment)
  silent : ∀ later segment earlier, events = later ++ segment ++ .close o :: earlier →
    (∀ ok, .connect o ok ∉ segment) → handlersOf o segment = []

/-- How far a conversation got: there is none that matters, `connect` returned,
`onConnect` was called, it is over, the socket was closed. -/
inductive Phase
  | free
  | fresh
  | up
  | down
  | shut
deriving DecidableEq, Repr

/-- The phase after a handler was called; `none` if that is out of order. -/
def Phase.call : Phase → Handler → Option Phase
  | .free, _ => some .free
  | .fresh, .onConnect => some .up
  | .fresh, .onIOError => some .down
  | .up, .onData => some .up
  | .up, .onClose => some .down
  | .up, .onIOError => some .down
  | _, _ => none

/-- The phase after an event of the socket. -/
def Phase.after (φ : Phase) : TcpEvent → Option Phase
  | .connect _ ok => some (if ok then .fresh else .free)
  | .close _ => some .shut
  | .handler _ h => φ.call h

/-- The phase after an event of any socket. -/
def Phase.next (o : ObjId) (φ : Phase) (e : TcpEvent) : Option Phase :=
  if e.obj = o then φ.after e else some φ

/-- The phase of a socket after what happened so far. -/
def phaseOf (o : ObjId) (events : List TcpEvent) : Option Phase :=
  Monitor.track (Phase.next o) .free events

section Monitoring

variable {o : ObjId} {e : TcpEvent} {events segment : List TcpEvent} {φ : Phase} {hs : List Handler}

/-- The handlers called for a socket, with the last event. -/
theorem handlersOf_cons : handlersOf o (e :: events) =
    handlersOf o events ++ (e.handlerOf o).toList := by
  unfold handlersOf
  rw [List.reverse_cons, List.filterMap_append]
  cases he : e.handlerOf o <;> simp [he]

/-- What was called since `connect` returned, by phase. -/
def Spoken : Phase → List Handler → Prop
  | .free, _ => False
  | .fresh, hs => hs = []
  | .up, hs => ∃ n, hs = .onConnect :: List.replicate n .onData
  | .down, hs => (∃ n last, (last = .onClose ∨ last = .onIOError) ∧
      hs = .onConnect :: (List.replicate n .onData ++ [last])) ∨ hs = [.onIOError]
  | .shut, hs => Conforms hs

/-- Whatever the phase, the conversation is in order. -/
theorem Spoken.conforms (h : Spoken φ hs) : Conforms hs := by
  cases φ with
  | free => cases h
  | fresh =>
      obtain rfl : hs = [] := h
      exact Or.inr List.nil_prefix
  | up =>
      obtain ⟨n, rfl⟩ := h
      refine Or.inl ⟨n, .onClose, Or.inl rfl, ?_⟩
      rw [← List.cons_append]
      exact List.prefix_append _ _
  | down =>
      rcases h with ⟨n, last, hlast, rfl⟩ | rfl
      · exact Or.inl ⟨n, last, hlast, List.prefix_rfl⟩
      · exact Or.inr List.prefix_rfl
  | shut => exact h

/-- A call in order continues the conversation. -/
theorem Spoken.call {h : Handler} {φ' : Phase} (hsp : Spoken φ hs) (hφ : φ.call h = some φ') :
    Spoken φ' (hs ++ [h]) := by
  cases φ with
  | free => cases hsp
  | fresh =>
      obtain rfl : hs = [] := hsp
      cases h <;> cases hφ
      · exact ⟨0, rfl⟩
      · exact Or.inr rfl
  | up =>
      obtain ⟨n, rfl⟩ := hsp
      cases h <;> cases hφ
      · exact ⟨n + 1, by rw [List.cons_append, List.replicate_succ']⟩
      · exact Or.inl ⟨n, .onClose, Or.inl rfl, by rw [List.cons_append]⟩
      · exact Or.inl ⟨n, .onIOError, Or.inr rfl, by rw [List.cons_append]⟩
  | down => cases h <;> cases hφ
  | shut => cases h <;> cases hφ

/-- From a `connect` on. -/
theorem spoken_of_track (h : Monitor.track (Phase.next o) .fresh segment = some φ)
    (hno : ∀ ok, .connect o ok ∉ segment) : Spoken φ (handlersOf o segment) := by
  revert hno
  refine Monitor.track_invariant
    (I := fun φ es => (∀ ok, .connect o ok ∉ es) → Spoken φ (handlersOf o es)) ?_ ?_ h
  · intro _
    show handlersOf o [] = []
    rfl
  intro φ es e φ' ih hnext hno
  have hsp := ih fun ok hmem => hno ok (List.mem_cons_of_mem e hmem)
  rw [handlersOf_cons]
  unfold Phase.next at hnext
  split_ifs at hnext with ho
  · cases e with
    | connect o' ok =>
        obtain rfl : o' = o := ho
        exact absurd List.mem_cons_self (hno ok)
    | close o' =>
        obtain rfl := Option.some.inj hnext
        show Conforms _
        simpa [TcpEvent.handlerOf] using hsp.conforms
    | handler o' h =>
        obtain rfl : o' = o := ho
        have hcall := hsp.call hnext
        simpa [TcpEvent.handlerOf] using hcall
  · obtain rfl := Option.some.inj hnext
    have hnone : e.handlerOf o = none := by
      cases e with
      | handler o' h => exact if_neg ho
      | _ => rfl
    rwa [hnone, Option.toList_none, List.append_nil]

/-- From a `close` on. -/
theorem silent_of_track (h : Monitor.track (Phase.next o) .shut segment = some φ)
    (hno : ∀ ok, .connect o ok ∉ segment) : handlersOf o segment = [] := by
  suffices hI : (∀ ok, .connect o ok ∉ segment) → φ = .shut ∧ handlersOf o segment = [] from
    (hI hno).2
  refine Monitor.track_invariant
    (I := fun φ es => (∀ ok, .connect o ok ∉ es) → φ = .shut ∧ handlersOf o es = [])
    (fun _ => ⟨rfl, rfl⟩) ?_ h
  intro φ es e φ' ih hnext hno
  obtain ⟨rfl, hnil⟩ := ih fun ok hmem => hno ok (List.mem_cons_of_mem e hmem)
  rw [handlersOf_cons, hnil]
  unfold Phase.next at hnext
  split_ifs at hnext with ho
  · cases e with
    | connect o' ok =>
        obtain rfl : o' = o := ho
        exact absurd List.mem_cons_self (hno ok)
    | close o' =>
        obtain rfl := Option.some.inj hnext
        exact ⟨rfl, rfl⟩
    | handler o' h => cases h <;> cases hnext
  · obtain rfl := Option.some.inj hnext
    refine ⟨rfl, ?_⟩
    cases e with
    | handler o' h => simpa [TcpEvent.handlerOf, TcpEvent.obj] using ho
    | _ => rfl

/-- **The monitor stands for the order of the handlers.** -/
theorem inOrder_of_phaseOf (h : phaseOf o events = some φ) : InOrder o events := by
  have hcut : ∀ later segment earlier e, events = later ++ segment ++ e :: earlier → e.obj = o →
      ∃ φ₁ φ₂ φ₃, Phase.after φ₁ e = some φ₂ ∧
        Monitor.track (Phase.next o) φ₂ segment = some φ₃ := by
    rintro later segment earlier e rfl ho
    rw [phaseOf, List.append_assoc] at h
    obtain ⟨φ₃, h₃, -⟩ := Monitor.track_of_append h
    obtain ⟨φ₂, h₂, h₃⟩ := Monitor.track_of_append h₃
    obtain ⟨φ₁, -, hnext⟩ := Option.bind_eq_some_iff.1 h₂
    rw [Phase.next, if_pos ho] at hnext
    exact ⟨φ₁, φ₂, φ₃, hnext, h₃⟩
  constructor
  · intro later segment earlier heq hno
    obtain ⟨φ₁, φ₂, φ₃, hafter, htrack⟩ := hcut later segment earlier _ heq rfl
    obtain rfl := Option.some.inj hafter
    exact (spoken_of_track htrack hno).conforms
  · intro later segment earlier heq hno
    obtain ⟨φ₁, φ₂, φ₃, hafter, htrack⟩ := hcut later segment earlier _ heq rfl
    obtain rfl := Option.some.inj hafter
    exact silent_of_track htrack hno

end Monitoring

/-! ### Sockets and their conversations -/

/-- The socket is in a state and registered for the descriptor it has. -/
def Registered (p : Process) (o : ObjId) (st : TCPSocketState) : Prop :=
  ∃ tcp ev, p.tcp? o = some tcp ∧ p.registry.lookup tcp.fd = some ev ∧ ev.obj = o ∧
    tcp.state = st

/-- The last thing that happened to the socket is a call of `onIOError`. -/
def Reported (o : ObjId) (events : List TcpEvent) : Prop :=
  events.find? (fun e => e.obj == o) = some (.handler o .onIOError)

/-- The steps that may register a `TCPSocket`. -/
def Label.mayRegister : Label → Bool
  | .script (.connect _ _ _) | .dispatch _ => true
  | _ => false

/-- The phases that go with the state of a registered socket. -/
def Phase.Fits : Phase → TCPSocketState → Prop
  | .free, _ => True
  | .fresh, .connecting => True
  | .up, .connected => True
  | _, _ => False

section

variable {A o : ObjId} {p p' : Process} {tcp : TCPSocket} {st : TCPSocketState} {φ : Phase}
  {e : TcpEvent} {events : List TcpEvent} {fd : ℤ}

/-- A registered socket has an event of its own at its descriptor. -/
theorem Registered.at_tcp (h : Registered p o st) (ht : p.tcp? o = some tcp) :
    tcp.state = st ∧ ∃ ev, p.registry.lookup tcp.fd = some ev ∧ ev.obj = o := by
  obtain ⟨tcp', ev, ht', hlook, hobj, hst⟩ := h
  obtain rfl := Option.some.inj (ht.symm.trans ht')
  exact ⟨hst, ev, hlook, hobj⟩

/-- What is no `TCPSocket` is not registered as one. -/
theorem not_registered_of_none (ht : p.tcp? o = none) : ¬ Registered p o st := by
  rintro ⟨tcp, ev, ht', -⟩
  cases ht.symm.trans ht'

/-- A socket without descriptor is not registered. -/
theorem not_registered_of_closed (h : Owned p) (ht : p.tcp? o = some tcp) (hfd : tcp.fd = -1) :
    ¬ Registered p o st := by
  intro hreg
  obtain ⟨-, ev, hlook, -⟩ := hreg.at_tcp ht
  have hnn := h.keys _ ev hlook
  omega

/-- A socket whose descriptor is not registered is not. -/
theorem not_registered_of_erase (ht : p.tcp? o = some tcp)
    (hreg : p.registry.lookup tcp.fd = none) : ¬ Registered p o st := by
  intro h
  obtain ⟨-, ev, hlook, -⟩ := h.at_tcp ht
  cases hreg.symm.trans hlook

/-- A quiet step registers no socket. -/
theorem Registered.of_quiet (hq : Quiet A p p') (h : Registered p' A st) : Registered p A st := by
  obtain ⟨tcp', ev, ht', hlook, hobj, hst'⟩ := h
  obtain ⟨tcp, ht, hfd, hst, -⟩ := hq.tcp tcp' ht'
  rw [hq.registry, hfd] at hlook
  exact ⟨tcp, ev, ht, hlook, hobj, hst.symm.trans hst'⟩

/-- No other object registers a socket. -/
theorem Registered.of_frame (hframe : Frame A p p') (ho : o ≠ A) (h : Registered p' o st) :
    Registered p o st := by
  obtain ⟨tcp, ev, ht, hlook, hobj, hst⟩ := h
  rw [Process.tcp?, hframe.objs o ho] at ht
  exact ⟨tcp, ev, ht, hframe.entries _ ev (hobj ▸ ho) hlook, hobj, hst⟩

/-- Time registers no socket. -/
theorem Registered.of_elapse {duration : Timespec} (h : Registered (p.elapse duration) o st) :
    Registered p o st := by
  obtain ⟨tcp, ev, ht, hlook, hobj, hst⟩ := h
  rw [Process.elapse, Registry.lookup_updateTimeouts, Option.map_eq_some_iff] at hlook
  obtain ⟨ev', hlook', rfl⟩ := hlook
  exact ⟨tcp, ev', ht, hlook', hobj, hst⟩

/-- An event of the socket itself. -/
theorem phaseOf_cons_self (hφ : phaseOf o events = some φ) (ho : e.obj = o) :
    phaseOf o (e :: events) = φ.after e := by
  unfold phaseOf at hφ ⊢
  rw [Monitor.track_cons, hφ]
  exact if_pos ho

/-- The phase of a conversation is a matter of its own events. -/
theorem phaseOf_cons_ne (ho : e.obj ≠ o) : phaseOf o (e :: events) = phaseOf o events := by
  unfold phaseOf
  rw [Monitor.track_cons]
  have hnext : (fun φ => Phase.next o φ e) = some := by
    funext φ
    exact if_neg ho
  rw [hnext, Option.bind_fun_some]

/-- The error was just reported. -/
theorem reported_cons_self (ho : e.obj = o) :
    Reported o (e :: events) ↔ e = .handler o .onIOError := by
  unfold Reported
  rw [List.find?_cons_of_pos (by simpa using ho), Option.some.injEq]

/-- The report is a matter of the socket's own events. -/
theorem reported_cons_ne (ho : e.obj ≠ o) : Reported o (e :: events) ↔ Reported o events := by
  unfold Reported
  rw [List.find?_cons_of_neg (by simpa using ho)]

/-- A socket that is registered and was not just reported an error may be called:
`onIOError` is in order. -/
theorem Phase.Fits.call_onIOError (h : φ.Fits st) :
    ∃ φ', φ.call .onIOError = some φ' := by
  cases φ <;> cases st <;> first | exact ⟨_, rfl⟩ | cases h

/-- `onConnect` is in order while the socket is connecting. -/
theorem Phase.Fits.call_onConnect (h : φ.Fits .connecting) :
    ∃ φ', φ.call .onConnect = some φ' ∧ φ'.Fits .connected := by
  cases φ <;> first | exact ⟨_, rfl, trivial⟩ | cases h

/-- `onData` is in order once it is connected. -/
theorem Phase.Fits.call_onData (h : φ.Fits .connected) :
    ∃ φ', φ.call .onData = some φ' ∧ φ'.Fits .connected := by
  cases φ <;> first | exact ⟨_, rfl, trivial⟩ | cases h

/-- On a connected socket `onClose` may be called. -/
theorem Phase.Fits.call_onClose (h : φ.Fits .connected) : ∃ φ', φ.call .onClose = some φ' := by
  cases φ <;> first | exact ⟨_, rfl⟩ | cases h

end

namespace World

/-- **A socket and its conversation go together**: the conversation is in order, and as
long as the socket is registered for its descriptor and was not just reported an
error, its phase fits the state. -/
def Follows (w : World) (o : ObjId) : Prop :=
  ∃ φ, phaseOf o w.events = some φ ∧
    ∀ st, Registered w.proc o st → ¬ Reported o w.events → φ.Fits st

/-- A callback may be called for the socket: it is registered for the descriptor it has,
and the last thing that happened to it is not a call of `onIOError`. -/
def Expects (w : World) (o : ObjId) : Prop :=
  (∃ st, Registered w.proc o st) ∧ ¬ Reported o w.events

/-- The step keeps the handlers in order.  A callback that may call a handler is called
only for a socket that expects it, and is registered again once it found the
connection established; and `connect(2)` completes no connection at once on a number
that is registered for the socket already. -/
def KeepsOrder (w : World) : Label → Prop
  | .script (.connect o argv r) => w.AtConnect o argv r fun tcp =>
      connectEnd tcp.blocking r = .completed →
        ∀ ev, w.proc.registry.lookup r.socket = some ev → ev.obj ≠ o
  | .dispatch r => ∀ d pending rest tcp, w.stack = .pass (d :: pending) :: rest →
      w.proc.tcp? d.obj = some tcp →
        (d.callback = .tcpSocketSelectCallback → tcp.blocking = false →
          tcp.state ≠ .unconnected → w.Expects d.obj ∧
            (tcp.state = .connecting → r.tcp.peername = true → r.tcp.mem = true)) ∧
        (d.callback = .tcpSocketSelectErrorCallback → w.Expects d.obj)
  | _ => True

variable {w w' : World} {l : Label} {A o : ObjId} {p' : Process} {φ φ' : Phase}

/-- Nothing happened to the socket, and it was not registered. -/
theorem Follows.of_same (h : w.Follows o) (hphase : phaseOf o w'.events = phaseOf o w.events)
    (hrep : Reported o w'.events ↔ Reported o w.events)
    (hreg : ∀ st, Registered w'.proc o st → Registered w.proc o st) : w'.Follows o := by
  obtain ⟨φ, hφ, hfit⟩ := h
  exact ⟨φ, hphase.trans hφ, fun st hst hno => hfit st (hreg st hst) fun h => hno (hrep.2 h)⟩

/-- A handler was called in order. -/
theorem Follows.of_call {h : Handler} (hφ : phaseOf o w.events = some φ)
    (hev : w'.events = .handler o h :: w.events) (hcall : φ.call h = some φ')
    (hfit : h ≠ .onIOError → ∀ st, Registered w'.proc o st → φ'.Fits st) : w'.Follows o := by
  refine ⟨φ', ?_, fun st hst hno => hfit (fun heq => hno ?_) st hst⟩
  · rw [hev]
    exact (phaseOf_cons_self hφ rfl).trans hcall
  · subst heq
    rw [hev]
    exact (reported_cons_self rfl).2 rfl

/-- What a call of a script says about `TCPSocket`s. -/
theorem exec_events {c : ScriptCall} {p : Process} {q : Process × List TcpEvent}
    (h : c.exec p = some q) : q.2 =
      match c with
      | .connect o argv r => [.connect o (tcpSocketConnect p o argv r).2.isOk]
      | .close o => [.close o]
      | _ => [] := by
  cases ScriptCall.exec_runs h <;> rfl

/-- What a step says about `TCPSocket`s it says about its actor. -/
theorem step_events (hs : Step w l w') :
    ∃ new, w'.events = new ++ w.events ∧ ∀ e ∈ new, w.actor l = some e.obj := by
  cases l with
  | dispatch r =>
      obtain ⟨d, pending, rest, p, exit, hstack, -, -, rfl⟩ := step_dispatch hs
      refine ⟨d.event exit, rfl, fun e he => ?_⟩
      rw [actor, hstack]
      cases exit with
      | invoke inv =>
          simp only [Dispatch.event] at he
          split_ifs at he
          · obtain rfl := List.mem_singleton.1 he
            rfl
          · cases he
      | _ => cases he
  | script c =>
      obtain ⟨-, q, hq, rfl⟩ := step_script hs
      refine ⟨q.2, rfl, fun e he => ?_⟩
      rw [exec_events hq] at he
      cases c with
      | connect o argv r =>
          obtain rfl := List.mem_singleton.1 he
          rfl
      | close o =>
          obtain rfl := List.mem_singleton.1 he
          rfl
      | _ => cases he
  | returned =>
      obtain ⟨d, inv, rest, -, rfl⟩ := step_returned hs
      exact ⟨[], rfl, fun e he => by cases he⟩
  | finalise o =>
      obtain ⟨-, -, rfl⟩ := step_finalise hs
      exact ⟨[], rfl, fun e he => by cases he⟩
  | handleSelect a =>
      obtain ⟨loop, rest, -, -, ⟨-, rfl⟩ | ⟨-, pending, duration, -, rfl⟩⟩ := step_handleSelect hs
      · exact ⟨[], rfl, fun e he => by cases he⟩
      · exact ⟨[], rfl, fun e he => by cases he⟩
  | _ => exact ⟨[], (step_control hs trivial).2, fun e he => by cases he⟩

/-- What other sockets say leaves phase and report as they are. -/
theorem phaseOf_append_ne {new : List TcpEvent} (events : List TcpEvent)
    (h : ∀ e ∈ new, e.obj ≠ o) :
    phaseOf o (new ++ events) = phaseOf o events ∧
      (Reported o (new ++ events) ↔ Reported o events) := by
  induction new with
  | nil => exact ⟨rfl, Iff.rfl⟩
  | cons e new ih =>
      obtain ⟨hphase, hrep⟩ := ih fun e' he' => h e' (List.mem_cons_of_mem e he')
      have he := h e List.mem_cons_self
      rw [List.cons_append]
      exact ⟨(phaseOf_cons_ne he).trans hphase, (reported_cons_ne he).trans hrep⟩

/-- Apart from `connect` and the callbacks nothing registers the actor. -/
theorem registered_of_effect {st : TCPSocketState} (h' : Owned p') (heff : Effect w A l p')
    (hl : l.mayRegister = false) (hreg : Registered p' A st) : Registered w.proc A st := by
  cases heff with
  | called hc hq => exact hreg.of_quiet hq
  | @newTcp argv mem =>
      refine absurd hreg ?_
      cases mem with
      | true => exact not_registered_of_closed h' Process.setTcp_tcp? rfl
      | false =>
          refine not_registered_of_none ?_
          rw [Process.tcp?, Process.setObj_objs_self]
          rfl
  | newUdpRefused =>
      refine absurd hreg (not_registered_of_none ?_)
      exact Process.tcp?_of_udpSocket (Process.setObj_objs_self ..)
  | newUdp _ _ _ hq =>
      obtain ⟨priv, -, hobjs⟩ := hq.objs
      have hobj : p'.objs A = .live (.udpSocket priv) := by rw [hobjs, Function.update_self]
      exact absurd hreg (not_registered_of_none (Process.tcp?_of_udpSocket hobj))
  | connectRefused => cases hl
  | connected => cases hl
  | closeIdle => exact hreg
  | closed => exact absurd hreg (not_registered_of_closed h' dropTcp_tcp? rfl)
  | udpCloseIdle => exact hreg
  | udpClosed =>
      exact absurd hreg (not_registered_of_none (Process.tcp?_of_udpSocket dropUdp_objs))
  | dispatched => cases hl
  | callback => cases hl
  | returned => exact hreg
  | returnedTcp => exact absurd hreg (not_registered_of_closed h' dropTcp_tcp? rfl)
  | returnedUdp =>
      exact absurd hreg (not_registered_of_none (Process.tcp?_of_udpSocket dropUdp_objs))
  | finalised _ hobjs =>
      refine absurd hreg (not_registered_of_none ?_)
      rw [Process.tcp?, hobjs]
      rfl

/-- A `connect` starts a conversation, or none that matters. -/
theorem follows_connect {argv : List JSVal} {r : ConnectReplies} (h : w.Follows A)
    (hg : KeepsOrder w (.script (.connect A argv r)))
    (hs : Step w (.script (.connect A argv r)) w') : w'.Follows A := by
  obtain ⟨φ, hφ, -⟩ := h
  obtain ⟨-, q, hq, rfl⟩ := step_script hs
  have hev := exec_events hq
  have hproc : q.1 = (tcpSocketConnect w.proc A argv r).1 := by
    cases ScriptCall.exec_runs hq
    rfl
  dsimp only at hev
  refine ⟨if (tcpSocketConnect w.proc A argv r).2.isOk then .fresh else .free, ?_, ?_⟩
  · rw [hev]
    exact phaseOf_cons_self hφ rfl
  · intro st hst _
    split_ifs with hok
    · obtain ⟨tcp, timeout, ht, htarget, hend, hleaves⟩ := tcpSocketConnect_ok hok
      rw [hproc] at hst
      obtain ⟨rfl, ev, hlook, hobj⟩ := hst.at_tcp hleaves.tcp?
      rcases hend with hend | ⟨hend, -⟩
      · rw [hleaves.registry, hend, if_neg (by simp), asked_registry] at hlook
        exact absurd hobj (hg htarget tcp ht hend ev hlook)
      · show Phase.Fits .fresh (ConnectEnd.state _ _)
        rw [hend]
        trivial
    · trivial

/-- After `close` there is nothing to expect. -/
theorem follows_close (h' : Owned w'.proc) (h : w.Follows A)
    (hs : Step w (.script (.close A)) w') : w'.Follows A := by
  obtain ⟨φ, hφ, -⟩ := h
  obtain ⟨-, q, hq, rfl⟩ := step_script hs
  have hev := exec_events hq
  have hproc : q.1 = (tcpSocketClose w.proc A).1 := by
    cases ScriptCall.exec_runs hq
    rfl
  dsimp only at hev h' ⊢
  refine ⟨.shut, ?_, fun st hst _ => ?_⟩
  · rw [hev]
    exact phaseOf_cons_self hφ rfl
  · rw [hproc] at hst h'
    rcases tcpSocketClose_cases w.proc A with ⟨heq, hidle⟩ | ⟨tcp, ht, hfd, heq⟩
    · rw [heq] at hst h'
      obtain ⟨tcp, ev, ht, -⟩ := id hst
      exact absurd hst (not_registered_of_closed h' ht (hidle tcp ht))
    · rw [heq] at hst h'
      exact absurd hst (not_registered_of_closed h' dropTcp_tcp? rfl)

/-- A callback that calls a handler. -/
theorem events_of_invoke {d : Dispatch} {exit : CallbackExit} {inv : Invocation}
    (hcb : d.callback = .tcpSocketSelectCallback) (hev : w'.events = d.event exit ++ w.events)
    (hinv : exit = .invoke inv) : w'.events = .handler d.obj inv.handler :: w.events := by
  have hcall : d.event exit = [.handler d.obj inv.handler] := by
    rw [hinv, Dispatch.event, hcb]
    rfl
  rw [hev, hcall]
  rfl

/-- With memory for the event, the handler is called. -/
theorem rearm_invokes {p : Process} {o : ObjId} {tcp : TCPSocket} {inv : Invocation}
    {r : TcpCallbackReplies} (hmem : r.mem = true) :
    (tcpSocketRearm p o tcp inv r).2 = .invoke inv := by
  rw [tcpSocketRearm, Process.psAddSelect, if_pos hmem]

/-- A callback that calls none, and registers nothing. -/
theorem Follows.of_quiet {d : Dispatch} {q : Process × CallbackExit} (hfol : w.Follows d.obj)
    (hproc : w'.proc = q.1) (hev : w'.events = d.event q.2 ++ w.events)
    (hno : ∀ inv, q.2 ≠ .invoke inv)
    (hreg : ∀ st, Registered q.1 d.obj st → Registered w.proc d.obj st) :
    w'.Follows d.obj := by
  have hsame : w'.events = w.events := by
    rw [hev]
    cases hexit : q.2 with
    | invoke inv => exact absurd hexit (hno inv)
    | _ => rfl
  refine hfol.of_same (by rw [hsame]) (by rw [hsame]) fun st hst => hreg st ?_
  rwa [hproc] at hst

/-- A failure calls `onIOError` or nothing, and removes the registration. -/
theorem Follows.of_fail {d : Dispatch} {p : Process} {tcp : TCPSocket} {r : TcpCallbackReplies}
    (hfol : w.Follows d.obj) (hφ : phaseOf d.obj w.events = some φ) (hfits : φ.Fits tcp.state)
    (hcb : d.callback = .tcpSocketSelectCallback)
    (hproc : w'.proc = (tcpSocketFail p d.obj tcp r).1)
    (hev : w'.events = d.event (tcpSocketFail p d.obj tcp r).2 ++ w.events) :
    w'.Follows d.obj := by
  have hgone : ∀ st, ¬ Registered (tcpSocketFail p d.obj tcp r).1 d.obj st := by
    intro st
    rw [tcpSocketFail_fst]
    exact not_registered_of_erase Process.setTcp_tcp? (AList.lookup_erase _ _)
  cases hstr : r.str with
  | true =>
      obtain ⟨φ', hcall⟩ := hfits.call_onIOError
      have hexit : (tcpSocketFail p d.obj tcp r).2 =
          .invoke ⟨.onIOError, tcp.onIOError, [.string (asciiString r.errmsg)]⟩ := by
        rw [tcpSocketFail, if_pos hstr]
      exact Follows.of_call hφ (events_of_invoke hcb hev hexit) hcall fun hne => absurd rfl hne
  | false =>
      refine hfol.of_quiet hproc hev (fun inv => ?_) fun st hst => absurd hst (hgone st)
      rw [tcpSocketFail, hstr, if_neg (by decide)]
      rintro ⟨⟩

/-- The select callback of a socket. -/
theorem follows_callback {d : Dispatch} {tcp : TCPSocket} {r : TcpCallbackReplies}
    {q : Process × CallbackExit} (h' : Owned w'.proc) (hfol : w.Follows d.obj)
    (hcb : d.callback = .tcpSocketSelectCallback) (ht : w.proc.tcp? d.obj = some tcp)
    (hg : tcp.blocking = false → tcp.state ≠ .unconnected → w.Expects d.obj ∧
      (tcp.state = .connecting → r.peername = true → r.mem = true))
    (hq : CallbackStep w.proc d.obj tcp r q) (hproc : w'.proc = q.1)
    (hev : w'.events = d.event q.2 ++ w.events) : w'.Follows d.obj := by
  obtain ⟨φ, hφ, hfit⟩ := id hfol
  -- a socket that is expected to be called is in the phase of its state
  have hphase : tcp.blocking = false → tcp.state ≠ .unconnected → φ.Fits tcp.state := by
    intro hb hst
    obtain ⟨⟨⟨st, hreg⟩, hno⟩, -⟩ := hg hb hst
    obtain ⟨rfl, -⟩ := hreg.at_tcp ht
    exact hfit _ hreg hno
  cases hq with
  | blocking =>
      refine hfol.of_quiet hproc hev (fun inv => by rintro ⟨⟩) fun st hst => absurd hst ?_
      exact not_registered_of_erase ht (AList.lookup_erase _ _)
  | unconnected => exact hfol.of_quiet hproc hev (fun inv => by rintro ⟨⟩) fun st hst => hst
  | connected hb hst hfd hpeer =>
      have hne : tcp.state ≠ .unconnected := by rw [hst]; decide
      have hfits := hphase hb hne
      rw [hst] at hfits
      obtain ⟨φ', hcall, hfits'⟩ := hfits.call_onConnect
      have hmem : r.mem = true := (hg hb hne).2 hst hpeer
      have hev' := events_of_invoke hcb hev (rearm_invokes hmem)
      refine Follows.of_call hφ hev' hcall fun _ st hreg => ?_
      rw [hproc] at hreg
      obtain ⟨rfl, -⟩ := hreg.at_tcp ((tcpSocketRearm_tcp? d.obj).trans Process.setTcp_tcp?)
      exact hfits'
  | refused hb hst => exact hfol.of_fail hφ (hphase hb (by rw [hst]; decide)) hcb hproc hev
  | closed hb hst hfd =>
      have hfits := hphase hb (by rw [hst]; decide)
      rw [hst] at hfits
      obtain ⟨φ', hcall⟩ := hfits.call_onClose
      refine Follows.of_call hφ (events_of_invoke hcb hev rfl) hcall fun _ st hreg => ?_
      rw [hproc] at hreg h'
      exact absurd hreg (not_registered_of_closed h' Process.setTcp_tcp? rfl)
  | broken hb hst => exact hfol.of_fail hφ (hphase hb (by rw [hst]; decide)) hcb hproc hev
  | data hb hst =>
      have hfits := hphase hb (by rw [hst]; decide)
      rw [hst] at hfits
      obtain ⟨φ', hcall, hfits'⟩ := hfits.call_onData
      cases hmem : r.mem with
      | true =>
          have hev' := events_of_invoke hcb hev (rearm_invokes hmem)
          refine Follows.of_call hφ hev' hcall fun _ st hreg => ?_
          rw [hproc] at hreg
          obtain ⟨hst', -⟩ := hreg.at_tcp ((tcpSocketRearm_tcp? d.obj).trans ht)
          rw [← hst', hst]
          exact hfits'
      | false =>
          refine hfol.of_quiet hproc hev (fun inv => ?_) fun st hreg => ?_
          · rw [tcpSocketRearm, Process.psAddSelect, hmem, if_neg (by decide)]
            rintro ⟨⟩
          · rw [tcpSocketRearm_fst, hmem, if_neg (by decide)] at hreg
            exact hreg

/-- A dispatch. -/
theorem follows_dispatch {r : CallbackReplies} (h : Owned w.proc) (h' : Owned w'.proc)
    (hA : w.actor (.dispatch r) = some A) (hfol : w.Follows A) (hg : KeepsOrder w (.dispatch r))
    (hs : Step w (.dispatch r) w') : w'.Follows A := by
  obtain ⟨d, pending, rest, p, exit, hstack, -, hcall, rfl⟩ := step_dispatch hs
  rw [actor, hstack] at hA
  obtain rfl := Option.some.inj hA
  have hsilent : ∀ w' : World, w'.events = w.events → (∀ st, Registered w'.proc d.obj st →
      Registered w.proc d.obj st) → w'.Follows d.obj := fun w' hev hreg =>
    hfol.of_same (by rw [hev]) (by rw [hev]) hreg
  unfold Dispatch.call at hcall
  split at hcall
  · rename_i hcb
    cases ht : w.proc.tcp? d.obj with
    | none =>
        unfold tcpSocketSelectCallback at hcall
        rw [ht] at hcall
        cases hcall
        exact hsilent _ rfl fun st hst => hst
    | some tcp =>
        have hstep := tcpSocketSelectCallback_step (r := r.tcp) h ht
        rw [Option.some.inj hcall] at hstep
        exact follows_callback h' hfol hcb ht ((hg _ _ _ _ hstack ht).1 hcb) hstep rfl rfl
  · rename_i hcb
    cases ht : w.proc.tcp? d.obj with
    | none =>
        unfold tcpSocketSelectErrorCallback at hcall
        rw [ht] at hcall
        cases hcall
        exact hsilent _ rfl fun st hst => hst
    | some tcp =>
        obtain ⟨⟨st, hreg⟩, hno⟩ := (hg _ _ _ _ hstack ht).2 hcb
        obtain ⟨φ, hφ, hfit⟩ := hfol
        obtain ⟨φ', hcall'⟩ := (hfit st hreg hno).call_onIOError
        unfold tcpSocketSelectErrorCallback at hcall
        rw [ht] at hcall
        cases hcall
        refine Follows.of_call hφ ?_ hcall' fun hne => absurd rfl hne
        simp only [Dispatch.event, hcb, PSSelectCallback.isTcp, if_true, List.singleton_append]
  · rename_i hcb
    have hquiet : Quiet d.obj w.proc p := (udpSocketSelectCallback_acts h hcall).calls.quiet
    refine hsilent _ ?_ fun st hst => hst.of_quiet hquiet
    cases exit <;> simp [Dispatch.event, hcb, PSSelectCallback.isTcp]
  · rename_i hcb
    cases hcall
    refine hsilent _ ?_ fun st hst => hst
    unfold udpSocketSelectErrorCallback
    cases w.proc.udp? d.obj <;> simp [Dispatch.event, hcb, PSSelectCallback.isTcp]

/-- **Every step that keeps the order** lets all sockets and their conversations go
together. -/
theorem step_follows (h : Owned w.proc) (hall : ∀ o, w.Follows o) (hg : KeepsOrder w l)
    (hs : Step w l w') (o : ObjId) : w'.Follows o := by
  have h' := step_owned h hs
  obtain ⟨new, hev, hnew⟩ := step_events hs
  -- what is not about this socket leaves its conversation alone
  have hother : w.actor l ≠ some o → (∀ st, Registered w'.proc o st → Registered w.proc o st) →
      w'.Follows o := by
    intro hne hreg
    have hobj : ∀ e ∈ new, e.obj ≠ o := fun e he heq => hne (heq ▸ hnew e he)
    obtain ⟨hphase, hrep⟩ := phaseOf_append_ne w.events hobj
    exact (hall o).of_same (by rw [hev, hphase]) (by rw [hev, hrep]) hreg
  rcases step_effect h hs with ⟨A, hA, heff⟩ | ⟨hA, heq⟩
  · by_cases ho : o = A
    · subst ho
      have hsame : l.mayRegister = false → w'.events = w.events → w'.Follows o := by
        intro hl hev
        exact (hall o).of_same (by rw [hev]) (by rw [hev]) fun st => registered_of_effect h' heff hl
      cases l with
      | dispatch r => exact follows_dispatch h h' hA (hall o) hg hs
      | script c =>
          cases c with
          | connect o' argv r =>
              obtain rfl := Option.some.inj hA
              exact follows_connect (hall _) hg hs
          | close o' =>
              obtain rfl := Option.some.inj hA
              exact follows_close h' (hall _) hs
          | _ =>
              obtain ⟨-, q, hq, rfl⟩ := step_script hs
              exact hsame rfl (by rw [exec_events hq]; rfl)
      | returned =>
          obtain ⟨d, inv, rest, -, rfl⟩ := step_returned hs
          exact hsame rfl rfl
      | finalise o' =>
          obtain ⟨-, -, rfl⟩ := step_finalise hs
          exact hsame rfl rfl
      | _ => cases hA
    · refine hother (fun hne => ho ?_) fun st => Registered.of_frame (step_frame h hs hA) ho
      exact Option.some.inj (hne.symm.trans hA)
  · refine hother (by rw [hA]; rintro ⟨⟩) fun st hst => ?_
    rcases heq with heq | ⟨duration, heq⟩
    · rwa [heq] at hst
    · rw [heq] at hst
      exact hst.of_elapse

/-- **The handlers of every socket are called in order, in the runs that keep the order**:
after a `connect`, `onConnect`, any number of `onData` and one of `onClose` and
`onIOError`, or `onIOError` alone, and none once `close` has returned.  The condition of a
step is that a callback is made to a socket that is registered at the descriptor it has
and that was not told of an error since, and that a confirmed connection gets its
registration.  Source: `TCPSocket_SelectCallback` and `TCPSocket_SelectErrorCallback`
(lines 262-399), `TCPSocket_Connect` and `TCPSocket_Close` (lines 536-718) of
`js/src/ext/pstcpsocket.c`. -/
theorem handlers_in_order {ls : List Label} (hrun : Run (Guarded KeepsOrder Step) start ls w)
    (o : ObjId) : InOrder o w.events := by
  have hstart : ∀ o, start.Follows o := by
    intro o
    refine ⟨.free, rfl, fun st hst => absurd hst (not_registered_of_none rfl)⟩
  have howned : ∀ w l w', Owned w.proc → Step w l w' → Owned w'.proc := fun _ _ _ h hs =>
    step_owned h hs
  have hkeep : ∀ w l w', Owned w.proc → (∀ o, Follows w o) → KeepsOrder w l → Step w l w' →
      ∀ o, Follows w' o := fun _ _ _ h hall hg hs => step_follows h hall hg hs
  have hfollows := hrun.guarded_invariant howned hkeep Owned.start hstart
  obtain ⟨φ, hφ, -⟩ := hfollows o
  exact inOrder_of_phaseOf hφ

/-- Two connections are established in one pass, and the first handler closes the other
socket: its callback is called all the same, and calls `onIOError`. -/
theorem handler_after_close : ¬ ∀ ls w, Run Step start ls w → ∀ o, InOrder o w.events := by
  intro hclaim
  have hrun : ∃ w : World, Run Step start
      [.execute, .script (.newTCPSocket 0 [] true),
        .script (.setTCPSocket 0 (.handler .onConnect) (.function 7)),
        .script (.connect 0 peerArgs (connectAnswers 3 .inProgress)),
        .script (.newTCPSocket 1 [] true),
        .script (.setTCPSocket 1 (.handler .onIOError) (.function 8)),
        .script (.connect 1 peerArgs (connectAnswers 4 .inProgress)), .interpreted true,
        .handleSelect ⟨.ready [] [3, 4] [], ⟨0, 0⟩, ⟨0, 0⟩⟩,
        .dispatch ⟨⟨true, .ready, "", true, true⟩, []⟩, .script (.close 1), .returned,
        .dispatch ⟨⟨false, .ready, "Bad file descriptor", true, true⟩, []⟩] w ∧
        w.events = [.handler 1 .onIOError, .close 1, .handler 0 .onConnect, .connect 1 true,
          .connect 0 true] := ⟨_, run_of_foldlM rfl, rfl⟩
  obtain ⟨w, hrun, hev⟩ := hrun
  have hsilent := (hclaim _ w hrun 1).silent [] [.handler 1 .onIOError]
    [.handler 0 .onConnect, .connect 1 true, .connect 0 true] hev (by simp)
  cases hsilent

/-- A connection that is established and brings data. -/
theorem handlers_in_order_data : ∃ w : World,
    w.events = [.handler 0 .onData, .handler 0 .onConnect, .connect 0 true] ∧
      InOrder 0 w.events := by
  have hrun : ∃ w : World, Run (Guarded KeepsOrder Step) start
      [.execute, .script (.newTCPSocket 0 [] true),
        .script (.connect 0 peerArgs (connectAnswers 3 .inProgress)), .interpreted true,
        .handleSelect ⟨.ready [] [3] [], ⟨0, 0⟩, ⟨0, 0⟩⟩,
        .dispatch ⟨⟨true, .ready, "", true, true⟩, []⟩, .returned, .passed,
        .handleSelect ⟨.ready [3] [] [], ⟨0, 0⟩, ⟨0, 0⟩⟩,
        .dispatch ⟨⟨true, .ready, "", true, true⟩, []⟩] w ∧
        w.events = [.handler 0 .onData, .handler 0 .onConnect, .connect 0 true] := by
    have hexpects : ∀ (w : World) (e : TcpEvent) (r : CallbackReplies),
        (∃ st, Registered w.proc 0 st) → w.events.head? = some e → e.obj = 0 →
        e ≠ .handler 0 .onIOError → r.tcp.mem = true →
        (∃ rest, w.stack = .pass [⟨3, 0, .tcpSocketSelectCallback⟩] :: rest) →
          KeepsOrder w (.dispatch r) := by
      rintro w e r hreg hhead ho hne hmem ⟨rest, hstack⟩ d pending rest' tcp hstack' ht
      obtain rfl := next_unique hstack hstack'
      obtain ⟨events, hev⟩ := List.head?_eq_some_iff.1 hhead
      have hno : ¬ Reported 0 w.events := by
        rw [hev, reported_cons_self ho]
        exact hne
      exact ⟨fun _ _ _ => ⟨⟨hreg, hno⟩, fun _ _ => hmem⟩, fun hcb => by cases hcb⟩
    refine ⟨_, .guarded_cons trivial rfl <| .guarded_cons trivial rfl <|
      .guarded_cons ?_ rfl <| .guarded_cons trivial rfl <|
      .guarded_cons trivial rfl <| .guarded_cons ?_ rfl <| .guarded_cons trivial rfl <|
      .guarded_cons trivial rfl <| .guarded_cons trivial rfl <| .guarded_cons ?_ rfl <| .nil _,
      rfl⟩
    · intro _ tcp ht hend
      obtain rfl := Option.some.inj ht
      exact absurd hend (by decide)
    · exact hexpects _ (.connect 0 true) _ ⟨_, _, _, rfl, rfl, rfl, rfl⟩ rfl rfl (by decide) rfl
        ⟨_, rfl⟩
    · exact hexpects _ (.handler 0 .onConnect) _ ⟨_, _, _, rfl, rfl, rfl, rfl⟩ rfl rfl (by decide)
        rfl ⟨_, rfl⟩
  obtain ⟨w, hrun, hev⟩ := hrun
  exact ⟨w, hev, handlers_in_order hrun 0⟩

end World
end ProntoScript
