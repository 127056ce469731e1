/-
# Who has the last word

A handler may close its socket or connect it to a new peer, and what it leaves should be
what the select callback leaves that called it.  `TCPSocket_SelectCallback`
(`js/src/ext/pstcpsocket.c`, lines 256-372) closes and unregisters before it calls the
handler, and returns with it.  `TCPSocket_SelectErrorCallback` (lines 377-399) closes the
socket once the handler is back, whatever descriptor the socket has by then: a connection
that `onIOError` asked for is closed before it is made, and the state stays CONNECTING.
-/

import ProntoScript.System.Effect

namespace ProntoScript

open Transition (Run Guarded Obeying)

/-- The descriptor, the state and the registrations of a socket are as they were left. -/
structure AsLeft (o : ObjId) (p p' : Process) : Prop where
  socket : (p'.tcp? o).map (fun tcp => (tcp.fd, tcp.state)) =
    (p.tcp? o).map fun tcp => (tcp.fd, tcp.state)
  events : ∀ n ev, ev.obj = o →
    (p'.registry.lookup n = some ev ↔ p.registry.lookup n = some ev)

section

variable {d : Dispatch} {p : Process} {o : ObjId}

/-- What nothing touches is as it was left. -/
theorem AsLeft.refl (o : ObjId) (p : Process) : AsLeft o p p := ⟨rfl, fun _ _ _ => Iff.rfl⟩

/-- Closing a socket leaves it as it is exactly if it has no descriptor. -/
theorem tcpSocketClose_asLeft_iff :
    AsLeft o p (tcpSocketClose p o).1 ↔ ∀ tcp, p.tcp? o = some tcp → tcp.fd = -1 := by
  rcases World.tcpSocketClose_cases p o with ⟨heq, hidle⟩ | ⟨tcp, ht, hfd, heq⟩
  · rw [heq]
    exact iff_of_true (.refl o p) hidle
  · rw [heq]
    refine iff_of_false (fun hleft => ?_) fun hidle => hfd (hidle tcp ht)
    have hsocket := hleft.socket
    rw [dropTcp_tcp?, ht] at hsocket
    injection hsocket with hpair
    injection hpair with hclosed
    exact hfd hclosed.symm

/-- What a callback of a `TCPSocket` does after its handler. -/
theorem finish_asLeft_iff (htcp : d.callback.isTcp = true) :
    AsLeft d.obj p (d.finish p) ↔ (d.callback = .tcpSocketSelectErrorCallback →
      ∀ tcp, p.tcp? d.obj = some tcp → tcp.fd = -1) := by
  unfold Dispatch.finish
  cases hcb : d.callback with
  | tcpSocketSelectCallback => exact iff_of_true (.refl d.obj p) fun h => by cases h
  | tcpSocketSelectErrorCallback =>
      rw [tcpSocketClose_asLeft_iff]
      exact ⟨fun h _ => h, fun h => h rfl⟩
  | udpSocketSelectCallback =>
      rw [hcb] at htcp
      cases htcp
  | udpSocketSelectErrorCallback =>
      rw [hcb] at htcp
      cases htcp

end

namespace World

/-- A callback of a `TCPSocket` returns, and the socket is as its handler left it. -/
def LastWord (w : World) (l : Label) (w' : World) : Prop :=
  ∀ d inv rest, l = .returned → w.stack = .handler d inv :: rest → d.callback.isTcp = true →
    AsLeft d.obj w.proc w'.proc

/-- The handler that the error callback called leaves the socket without a descriptor. -/
def LeavesClosed (w : World) (l : Label) : Prop :=
  ∀ d inv rest, l = .returned → w.stack = .handler d inv :: rest →
    d.callback = .tcpSocketSelectErrorCallback → ∀ tcp, w.proc.tcp? d.obj = some tcp → tcp.fd = -1

variable {w w' : World} {l : Label}

/-- **The handler has the last word exactly if the callback has nothing left to close.** -/
theorem lastWord_iff (hs : Step w l w') : LastWord w l w' ↔ LeavesClosed w l := by
  constructor
  · rintro hword d inv rest rfl hstack hcb
    obtain ⟨d', inv', rest', hstack', rfl⟩ := step_returned hs
    obtain rfl := handler_unique hstack hstack'
    have htcp : d.callback.isTcp = true := by rw [hcb]; rfl
    exact (finish_asLeft_iff htcp).1 (hword d inv rest rfl hstack htcp) hcb
  · rintro hclosed d inv rest rfl hstack htcp
    obtain ⟨d', inv', rest', hstack', rfl⟩ := step_returned hs
    obtain rfl := handler_unique hstack hstack'
    exact (finish_asLeft_iff htcp).2 (hclosed d inv rest rfl hstack)

/-- **The handler has the last word, in the runs whose error callbacks find nothing to
close.**  These are exactly the runs in which every callback of a `TCPSocket` returns with
the descriptor, the state and the registrations its handler left, whatever the handlers
did and however deep they were called.  The error callback calls `TCPSocket_Close` behind
its handler.  Source: `TCPSocket_SelectCallback` (lines 353-373) and
`TCPSocket_SelectErrorCallback` (lines 378-399) of `js/src/ext/pstcpsocket.c`. -/
theorem handler_has_last_word (ls : List Label) (w : World) :
    Run (Guarded LeavesClosed Step) start ls w ↔ Run (Obeying LastWord Step) start ls w :=
  Transition.run_guarded_iff_obeying (J := fun _ => True) (fun _ _ _ _ _ => trivial)
    (fun w l w' _ hs => @lastWord_iff w w' l hs) trivial

/-- `select` fails on a socket that connects; its `onIOError` connects it again, on
descriptor 4, and the callback closes the new connection. -/
theorem reconnect_undone :
    ¬ ∀ ls w l w', Run Step start ls w → Step w l w' → LastWord w l w' := by
  intro hclaim
  have hrun : ∃ (w w' : World) (d : Dispatch) (inv : Invocation) (rest : List Activation),
      Run Step start [.execute, .script (.newTCPSocket 0 [] true),
        .script (.setTCPSocket 0 (.handler .onIOError) (.function 1)),
        .script (.connect 0 peerArgs (connectAnswers 3 .inProgress)), .interpreted true,
        .handleSelect ⟨.failed, ⟨0, 0⟩, ⟨0, 0⟩⟩, .dispatch ⟨⟨true, .ready, "", true, true⟩, []⟩,
        .script (.connect 0 peerArgs (connectAnswers 4 .inProgress))] w ∧
      Step w .returned w' ∧ w.stack = .handler d inv :: rest ∧ d.callback.isTcp = true ∧
      d.obj = 0 ∧ (w.proc.tcp? 0).map TCPSocket.fd = some 4 ∧
      (w'.proc.tcp? 0).map TCPSocket.fd = some (-1) :=
    ⟨_, _, _, _, _, run_of_foldlM rfl, rfl, rfl, rfl, rfl, rfl, rfl⟩
  obtain ⟨w, w', d, inv, rest, hrun, hs, hstack, htcp, hobj, hleft, hclosed⟩ := hrun
  have hsocket := (hclaim _ w _ w' hrun hs d inv rest rfl hstack htcp).socket
  have hfd := congrArg (Option.map Prod.fst) hsocket
  rw [hobj, Option.map_map, Option.map_map] at hfd
  cases hclosed.symm.trans (hfd.trans hleft)

end World
end ProntoScript
