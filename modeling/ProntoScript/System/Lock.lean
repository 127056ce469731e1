/-
# The lock of the select events

`ps_EventsLock` (`js/src/ext/psselect.c`, lines 163-189) is made by `ps_InitSelect` if
there is none, and destroyed by `ps_DestroySelect`.  Every `js_Execute` calls the former
when it starts, and the latter when its script has ended without a failure and no events
are left, whether or not other executions are still running; one that fails destroys
nothing.

The lock is acquired by `ps_AddSelect`, once its event is allocated, by
`ps_RemoveSelect`, and by `ps_HandleSelect` where there are events.  `Engine.acquires`
says which steps do so: they are the ones that change the registered events
(`Engine.registry_of_not_acquires`).
-/

import ProntoScript.System.Engine
import ProntoScript.System.Safety

namespace ProntoScript

open Transition (Run Guarded Obeying Recorded run_guarded_iff_obeying)

/-- The object holds a descriptor. -/
def Process.holdsFd (p : Process) (o : ObjId) : Bool :=
  match p.fdOf o with
  | some fd => fd != -1
  | none => false

/-- The call on a socket gets to `ps_RemoveSelect`, or to `ps_AddSelect` with memory for
the event. -/
def ScriptCall.locks (p : Process) : ScriptCall → Bool
  | newUDPSocket _ argv r => typeOfValue (argv.headD .void) != .number && udpOpens r
  | connect obj argv r =>
      match p.tcp? obj with
      | some tcp => (connectTarget r argv).isOk && (connectEnd tcp.blocking r == .waiting && r.mem)
      | none => false
  | close obj | udpClose obj => p.holdsFd obj
  | _ => false

/-- `TCPSocket_SelectCallback` does. -/
def tcpCallbackLocks (p : Process) (obj : ObjId) (r : TcpCallbackReplies) : Bool :=
  match p.tcp? obj with
  | none => false
  | some tcp =>
      if tcp.blocking then true
      else
        match tcp.state with
        | .unconnected => false
        | .connecting => if p.answer tcp.fd r.peername then r.mem else true
        | .connected =>
            match if p.answer tcp.fd true then r.peek else .failed with
            | .ready => r.mem
            | _ => true

/-- The callback of a copy does, before the call of the handler. -/
def Dispatch.callLocks (d : Dispatch) (p : Process) (r : CallbackReplies) : Bool :=
  match d.callback with
  | .tcpSocketSelectCallback => tcpCallbackLocks p d.obj r.tcp
  | _ => false

/-- The callback of a copy does, after the call of the handler. -/
def Dispatch.finishLocks (d : Dispatch) (p : Process) : Bool :=
  match d.callback with
  | .tcpSocketSelectErrorCallback | .udpSocketSelectErrorCallback => p.holdsFd d.obj
  | _ => false

/-- `js_Execute` starts to interpret its script, or returns `JS_TRUE`. -/
inductive ExecuteEvent
  | started
  | succeeded
deriving DecidableEq, Repr

/-- The step calls `js_Execute`. -/
def EngineLabel.executes : EngineLabel → Bool
  | .process (.compiles _) | .op (.systemInclude (some (.compiles _))) | .op (.execute _) => true
  | _ => false

section

variable {p : Process}

/-- Without a descriptor `close` does not touch the registry. -/
theorem tcpSocketClose_registry {o : ObjId} (hl : p.holdsFd o = false) :
    (tcpSocketClose p o).1.registry = p.registry := by
  unfold tcpSocketClose
  cases ht : p.tcp? o with
  | none => rfl
  | some tcp =>
      have hfd : tcp.fd = -1 := by simpa [Process.holdsFd, Process.fdOf_of_tcp? ht] using hl
      simp [hfd]

/-- The same for a `UDPSocket`. -/
theorem udpSocketClose_registry {o : ObjId} (hl : p.holdsFd o = false) :
    (udpSocketClose p o).1.registry = p.registry := by
  unfold udpSocketClose
  cases hu : p.udp? o with
  | none => rfl
  | some udp =>
      have hfd : udp.fd = -1 := by simpa [Process.holdsFd, Process.fdOf_of_udp? hu] using hl
      simp [hfd]

/-- A call that does not get to the list of events leaves it alone. -/
theorem ScriptCall.exec_registry {c : ScriptCall} {q : Process × List TcpEvent} (h : Owned p)
    (hq : c.exec p = some q) (hl : c.locks p = false) : q.1.registry = p.registry := by
  cases ScriptCall.exec_runs hq with
  | newTCPSocket obj argv mem hnew => rfl
  | newUDPSocket obj argv r q' hnew hq' =>
      have hleaves := udpSocketCT_leaves hq'
      split_ifs at hleaves with hnum
      · rw [hleaves]
        rfl
      · have hno : udpOpens r = false := by
          simp only [locks, bne_iff_ne.2 hnum, Bool.true_and] at hl
          exact hl
        rw [hleaves.1.registry, hno]
        rfl
  | setTCPSocket obj slot vp q' _ hq' =>
      obtain rfl | ⟨tcp, hd, -, rfl, -⟩ := tcpSocketSetProperty_acts h hq' <;> rfl
  | setUDPSocket obj slot vp q' _ hq' =>
      obtain rfl | ⟨udp, udp', -, -, rfl, -⟩ := udpSocketSetProperty_acts h hq' <;> rfl
  | connect obj argv r hc =>
      cases htarget : connectTarget r argv with
      | error e => rw [(tcpSocketConnect_of_error htarget).1]
      | ok target =>
          cases ht : p.tcp? obj with
          | none =>
              unfold tcpSocketConnect
              rw [ht]
          | some tcp =>
              obtain ⟨ip, port, timeout⟩ := target
              have hno : ¬ (connectEnd tcp.blocking r = .waiting ∧ r.mem = true) := by
                simpa [locks, ht, htarget, Except.isOk, Except.toBool] using hl
              rw [tcpSocketConnect_of_target ht htarget, tcpSocketConnectTo_leaves.registry,
                if_neg hno, asked_registry]
  | close obj _ => exact tcpSocketClose_registry hl
  | read obj argv stray replies q' _ hq' => exact (tcpSocketRead_acts h hq').calls.registry
  | write obj argv sent _ => exact (tcpSocketWrite_acts h).calls.registry
  | udpClose obj _ => exact udpSocketClose_registry hl
  | udpSend obj argv r _ => exact (udpSocketSend_acts h).calls.registry

/-- Nor does a callback, before its handler or after. -/
theorem tcpSocketSelectCallback_registry {o : ObjId} {r : TcpCallbackReplies}
    (hl : tcpCallbackLocks p o r = false) :
    (tcpSocketSelectCallback p o r).1.registry = p.registry := by
  unfold tcpCallbackLocks at hl
  unfold tcpSocketSelectCallback
  cases ht : p.tcp? o with
  | none => rfl
  | some tcp =>
      rw [ht] at hl
      dsimp only at hl ⊢
      cases hb : tcp.blocking with
      | true =>
          rw [hb] at hl
          cases hl
      | false =>
          rw [hb] at hl
          simp only [Bool.false_eq_true, if_false] at hl ⊢
          cases hst : tcp.state with
          | unconnected => rfl
          | connecting =>
              simp only [hst] at hl ⊢
              cases hok : p.answer tcp.fd r.peername with
              | true =>
                  rw [hok] at hl
                  have hmem : r.mem = false := hl
                  simp [tcpSocketRearm, Process.psAddSelect, hmem]
              | false =>
                  rw [hok] at hl
                  cases hl
          | connected =>
              simp only [hst] at hl ⊢
              generalize (if p.answer tcp.fd true = true then r.peek else PeekReply.failed) = npeek
                at hl ⊢
              cases npeek with
              | ready =>
                  have hmem : r.mem = false := hl
                  simp [tcpSocketRearm, Process.psAddSelect, hmem]
              | _ => cases hl

/-- A callback that does not acquire the lock does not touch the registry. -/
theorem Dispatch.call_registry {d : Dispatch} {r : CallbackReplies} {q : Process × CallbackExit}
    (h : Owned p) (hq : d.call p r = some q) (hl : d.callLocks p r = false) :
    q.1.registry = p.registry := by
  unfold call at hq
  unfold callLocks at hl
  split at hq
  · rename_i hc
    cases hq
    rw [hc] at hl
    exact tcpSocketSelectCallback_registry hl
  · cases hq
    rfl
  · exact (udpSocketSelectCallback_acts h hq).calls.registry
  · cases hq
    rfl

/-- The same for what follows its handler. -/
theorem Dispatch.finish_registry {d : Dispatch} (hl : d.finishLocks p = false) :
    (d.finish p).registry = p.registry := by
  unfold finishLocks at hl
  unfold finish
  split
  · rename_i hc
    rw [hc] at hl
    exact tcpSocketClose_registry hl
  · rename_i hc
    rw [hc] at hl
    exact udpSocketClose_registry hl
  · rfl

end

namespace Engine

/-- The step acquires `ps_EventsLock`. -/
def acquires (e : Engine) : EngineLabel → Bool
  | .op (.socket c) => c.locks e.proc
  | .handleSelect _ => !e.proc.registry.entries.isEmpty
  | .dispatch r =>
      match e.stack with
      | .pass (d :: _) :: _ => d.callLocks e.proc r
      | _ => false
  | .ended =>
      match e.stack with
      | .handler d _ :: _ => d.finishLocks e.proc
      | _ => false
  | _ => false

/-- The step ends the loop of a `js_Execute`, which returns `JS_TRUE`. -/
def executeSucceeds (e : Engine) : EngineLabel → Bool
  | .handleSelect _ =>
      match e.stack with
      | .draining _ :: _ => e.proc.registry.entries.isEmpty
      | _ => false
  | _ => false

/-- The executions that started and succeeded, the latest first. -/
def noteExecute (e : Engine) (l : EngineLabel) (e' : Engine) (h : List ExecuteEvent) :
    List ExecuteEvent :=
  if e.executeSucceeds l then .succeeded :: h
  else if l.executes && e'.stack.head? != some .undefined then .started :: h
  else h

/-- The lock is acquired only where it exists; elsewhere `JS_ACQUIRE_LOCK` is given a null
pointer. -/
def HoldsLock (s : Engine × List ExecuteEvent) (l : EngineLabel)
    (_ : Engine × List ExecuteEvent) : Prop :=
  s.1.acquires l = true → s.1.psEventsLock = true

/-- The lock is acquired only where an execution has started since the last one that
succeeded. -/
def StartedLast (s : Engine × List ExecuteEvent) (l : EngineLabel) : Prop :=
  s.1.acquires l = true → s.2.head? = some .started

/-- The lock exists between the start of an execution and the next success of one. -/
def LockTracks (s : Engine × List ExecuteEvent) : Prop :=
  s.1.psEventsLock = true ↔ s.2.head? = some .started

section

variable {e e' : Engine} {h : List ExecuteEvent} {l : EngineLabel}

/-- A call of `js_Execute` makes the lock, or ends what can be said. -/
theorem lockTracks_enterScript {caller : ExecuteCaller} {newLock : Bool}
    (hl : l.executes = true) (hno : e.executeSucceeds l = false) (hJ : LockTracks (e, h)) :
    LockTracks (e.enterScript caller newLock,
      noteExecute e l (e.enterScript caller newLock) h) := by
  unfold noteExecute
  rw [hno, hl, Bool.true_and]
  unfold enterScript
  by_cases hlock : (e.psEventsLock || newLock) = true
  · rw [if_pos hlock]
    exact iff_of_true rfl rfl
  · rw [if_neg hlock]
    exact hJ

/-- The other steps leave the lock and the record alone. -/
theorem LockTracks.of_eq (hJ : LockTracks (e, h)) (hlock : e'.psEventsLock = e.psEventsLock)
    (hno : e.executeSucceeds l = false) (hl : l.executes = false) :
    LockTracks (e', noteExecute e l e' h) := by
  unfold noteExecute
  rw [hno, hl]
  show e'.psEventsLock = true ↔ _
  rw [hlock]
  exact hJ

/-- A script changes the lock only by executing another one. -/
theorem lockTracks_op {o : ScriptOp} (hJ : LockTracks (e, h)) (ho : e.op o = some e') :
    LockTracks (e', noteExecute e (.op o) e' h) := by
  cases o with
  | systemInclude found =>
      cases ho
      rcases found with _ | _ | _ | newLock
      · exact hJ.of_eq rfl rfl rfl
      · exact hJ.of_eq rfl rfl rfl
      · exact hJ.of_eq rfl rfl rfl
      · exact lockTracks_enterScript rfl rfl hJ
  | execute newLock =>
      cases ho
      exact lockTracks_enterScript rfl rfl hJ
  | socket c =>
      obtain ⟨q, -, rfl⟩ := Option.map_eq_some_iff.1 ho
      exact hJ.of_eq (settle_psEventsLock _ _) rfl rfl
  | add s argv mem =>
      dsimp only [op] at ho
      split at ho <;> cases ho
      · exact hJ.of_eq rfl rfl rfl
      · exact hJ.of_eq (settle_psEventsLock _ _) rfl rfl
  | assert s argv =>
      dsimp only [op, assert] at ho
      split at ho <;> cases ho
      · exact hJ.of_eq rfl rfl rfl
      · refine hJ.of_eq ?_ rfl rfl
        split
        · exact settle_psEventsLock _ _
        · rfl
        · rfl
  | newJSUnit s mem =>
      dsimp only [op] at ho
      split_ifs at ho
      cases ho
      exact hJ.of_eq rfl rfl rfl
  | run s =>
      dsimp only [op] at ho
      split at ho <;> cases ho <;> exact hJ.of_eq rfl rfl rfl
  | _ =>
      cases ho
      exact hJ.of_eq rfl rfl rfl

/-- The lock exists exactly between the start of an execution and the next success. -/
theorem step_lockTracks (hJ : LockTracks (e, h)) (hs : Step e l e') :
    LockTracks (e', noteExecute e l e' h) := by
  cases l with
  | process file =>
      obtain ⟨-, rfl⟩ := step_process hs
      cases file with
      | compiles newLock => exact lockTracks_enterScript rfl rfl hJ
      | _ => exact hJ.of_eq rfl rfl rfl
  | op o => exact lockTracks_op hJ (step_op hs).2
  | caught =>
      obtain ⟨-, -, rfl⟩ := step_caught hs
      exact hJ.of_eq rfl rfl rfl
  | ended =>
      obtain ⟨caller, rest, hstack, ⟨-, rfl⟩ | ⟨-, rfl⟩⟩ | ⟨d, inv, rest, hstack, rfl⟩ |
        ⟨s, i, rest, suite, hstack, -, rfl⟩ := step_ended hs
      · cases caller <;> exact hJ.of_eq rfl rfl rfl
      all_goals exact hJ.of_eq rfl rfl rfl
  | handleSelect a =>
      obtain ⟨-, loop, rest, hstack, hloop, ⟨hnone, rfl⟩ | ⟨reg, pending, hsome, rfl⟩⟩ :=
        step_handleSelect hs
      · have hempty : e.proc.registry.entries.isEmpty = true :=
          List.isEmpty_iff.2 (psHandleSelect_eq_none.1 hnone)
        cases loop with
        | draining caller =>
            have hno : e.executeSucceeds (.handleSelect a) = true := by
              unfold executeSucceeds
              rw [hstack]
              exact hempty
            unfold noteExecute
            rw [if_pos hno]
            show (if CallFrame.draining caller = .events then e.psEventsLock else false) = true ↔
              some ExecuteEvent.succeeded = some .started
            simp
        | events =>
            have hno : e.executeSucceeds (.handleSelect a) = false := by
              unfold executeSucceeds
              rw [hstack]
            exact hJ.of_eq rfl hno rfl
        | _ => cases hloop
      · have hne : e.proc.registry.entries.isEmpty = false := by
          rw [List.isEmpty_eq_false_iff]
          intro hempty
          rw [psHandleSelect_eq_none.2 hempty] at hsome
          cases hsome
        have hno : e.executeSucceeds (.handleSelect a) = false := by
          unfold executeSucceeds
          rw [hstack]
          dsimp only
          split
          · exact hne
          · rfl
        exact hJ.of_eq rfl hno rfl
  | dispatch r =>
      obtain ⟨-, d, pending, rest, p, exit, hstack, -, -, rfl⟩ := step_dispatch hs
      refine hJ.of_eq ?_ rfl rfl
      rcases callback_cases _ exit with hc | hc | hc <;> rw [hc] <;> rfl
  | passed =>
      obtain ⟨-, rest, -, rfl⟩ := step_passed hs
      exact hJ.of_eq rfl rfl rfl
  | nextTest =>
      obtain ⟨-, s, i, rest, suite, -, -, ⟨-, rfl⟩ | ⟨-, rfl⟩⟩ := step_nextTest hs
      · exact hJ.of_eq rfl rfl rfl
      · exact hJ.of_eq (settle_psEventsLock _ _) rfl rfl
  | finalise o =>
      obtain ⟨-, rfl⟩ := step_finalise hs
      exact hJ.of_eq rfl rfl rfl

/-- The steps that do not acquire the lock leave the registered events alone. -/
theorem registry_of_not_acquires (ho : Owned e.proc) (hs : Step e l e')
    (hl : e.acquires l = false) : e'.proc.registry = e.proc.registry := by
  have hproc := step_proc hs
  generalize e'.proc = p at hproc ⊢
  cases hproc with
  | same _ => rfl
  | call hq => exact ScriptCall.exec_registry ho hq hl
  | pass hq =>
      have hempty : e.proc.registry.entries.isEmpty = true := by
        simpa [acquires] using hl
      rw [psHandleSelect_eq_none.2 (List.isEmpty_iff.1 hempty)] at hq
      cases hq
  | callback hstack hq =>
      unfold acquires at hl
      rw [hstack] at hl
      exact Dispatch.call_registry ho hq hl
  | finish hstack =>
      unfold acquires at hl
      rw [hstack] at hl
      exact Dispatch.finish_registry hl
  | finalise o =>
      split_ifs
      · exact tcpSocketDT_registry
      · exact udpSocketDT_registry

/-- **The life of the lock.**  In a run every acquisition of `ps_EventsLock` finds the
lock exactly if, whenever it is acquired, an execution has started since the last one that
succeeded: each execution that succeeds destroys the lock, also one within another.
Source: `js_Execute` (lines 1430-1450 of `js/src/jsinterp.c`), `ps_InitSelect` and
`ps_DestroySelect` (lines 163-189) and the users of the lock (lines 204-299 and 368-404)
of `js/src/ext/psselect.c`. -/
theorem lock_held_iff {ls : List EngineLabel} :
    Run (Guarded StartedLast (Recorded noteExecute Step)) (start, []) ls (e, h) ↔
      Run (Obeying HoldsLock (Recorded noteExecute Step)) (start, []) ls (e, h) := by
  refine run_guarded_iff_obeying (R := HoldsLock) (J := LockTracks) ?_ ?_ ?_
  · rintro ⟨e, h⟩ l ⟨e', h'⟩ hJ ⟨hs, hh⟩
    obtain rfl : h' = noteExecute e l e' h := hh
    exact step_lockTracks hJ hs
  · rintro s l t hJ -
    exact imp_congr Iff.rfl hJ
  · exact iff_of_false Bool.false_ne_true (by simp)

/-- A script includes another one and connects a socket then: the lock was destroyed with
the inner execution. -/
theorem connect_after_include :
    ¬ ∀ ls e l e', Run Step start ls e → Step e l e' → e.acquires l = true →
      e.psEventsLock = true := by
  intro hclaim
  have hrun : ∃ e e' : Engine, Run Step start
      [.process (.compiles true), .op (.systemInclude (some (.compiles true))), .ended,
        .handleSelect ⟨.timedOut, ⟨0, 0⟩, ⟨0, 0⟩⟩, .op (.socket (.newTCPSocket 0 [] true))] e ∧
      Step e (.op (.socket (.connect 0 peerArgs (connectAnswers 3 .inProgress)))) e' ∧
      e.acquires (.op (.socket (.connect 0 peerArgs (connectAnswers 3 .inProgress)))) = true ∧
      e.psEventsLock = false :=
    ⟨_, _, run_of_foldlM rfl, rfl, rfl, rfl⟩
  obtain ⟨e, e', hrun, hs, hacq, hno⟩ := hrun
  have hlock := hclaim _ e _ e' hrun hs hacq
  rw [hno] at hlock
  cases hlock

end

end Engine
end ProntoScript
