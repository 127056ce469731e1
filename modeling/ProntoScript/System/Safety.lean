/-
# Descriptor discipline and non-interference

The native code of the sockets is what scripts call, the select callbacks with what
they do once their handler has returned, and the finalisers.  Whatever order these
run in, for whatever events the callbacks are dispatched (`Process.Native`), each
consists of acts of one object, so the process stays `Owned`, and no socket ever
touches a descriptor of another one (`Process.descriptor_discipline`).

A step of the world runs the native code of at most one object (`World.actor`,
`World.step_acts`); the other steps leave the process as it is, but for the timeouts
a pass of `ps_HandleSelect` counts down.  So the runs of the world are among those
(`World.run_native`), and the native code of one socket leaves the private data and
the registration of every other one alone (`World.non_interference`).
-/

import ProntoScript.Socket.Connect
import ProntoScript.Socket.Methods
import ProntoScript.Socket.UdpMethods
import ProntoScript.System.World

namespace ProntoScript

open Transition (Run)

/-- Time passes: the timeouts of the registered events are counted down. -/
def Process.elapse (p : Process) (duration : Timespec) : Process :=
  { p with registry := p.registry.updateTimeouts duration }

section

variable {p : Process} {d : Dispatch}

/-- A call of a script consists of acts of the object it is made on. -/
theorem ScriptCall.exec_acts {c : ScriptCall} {q : Process × List TcpEvent} (h : Owned p)
    (hq : c.exec p = some q) : Acts c.obj p q.1 := by
  cases ScriptCall.exec_runs hq with
  | newTCPSocket obj argv mem hnew =>
      refine .single (.store (.of_closed fun n hn => ?_))
      unfold tcpSocketNew at hn
      split_ifs at hn
      · exact (Option.some.inj hn).symm
      · cases hn
  | newUDPSocket obj argv r q' hnew hq' => exact udpSocketCT_acts hnew.2 hq'
  | setTCPSocket obj slot vp q' _ hq' =>
      rcases tcpSocketSetProperty_acts h hq' with rfl | ⟨tcp, hd, -, -, hacts⟩
      · exact .refl
      · exact hacts
  | setUDPSocket obj slot vp q' _ hq' =>
      rcases udpSocketSetProperty_acts h hq' with rfl | ⟨udp, udp', -, -, -, hacts⟩
      · exact .refl
      · exact hacts
  | connect obj argv r hc => exact tcpSocketConnect_acts h hc.2
  | close obj _ => exact tcpSocketClose_acts h
  | read obj argv stray replies q' _ hq' => exact (tcpSocketRead_acts h hq').acts
  | write obj argv sent _ => exact (tcpSocketWrite_acts h).acts
  | udpClose obj _ => exact udpSocketClose_acts
  | udpSend obj argv r _ => exact (udpSocketSend_acts h).acts

/-- So does a select callback up to the call of its handler. -/
theorem Dispatch.call_acts {r : CallbackReplies} {q : Process × CallbackExit} (h : Owned p)
    (hq : d.call p r = some q) : Acts d.obj p q.1 := by
  unfold call at hq
  split at hq
  · cases hq
    exact tcpSocketSelectCallback_acts h
  · cases hq
    exact .refl
  · exact (udpSocketSelectCallback_acts h hq).acts
  · cases hq
    exact .refl

/-- And what it does after the handler. -/
theorem Dispatch.finish_acts (h : Owned p) : Acts d.obj p (d.finish p) := by
  unfold finish
  split
  · exact tcpSocketClose_acts h
  · exact udpSocketClose_acts
  · exact .refl

/-- Counting down keeps ownership. -/
theorem Owned.elapse (h : Owned p) (duration : Timespec) : Owned (p.elapse duration) where
  fits := h.fits
  disciplined := h.disciplined
  keys fd ev hev := by
    rw [Process.elapse, Registry.lookup_updateTimeouts, Option.map_eq_some_iff] at hev
    obtain ⟨ev', hev', -⟩ := hev
    exact h.keys fd ev' hev'

end

/-! ### Native code in any order -/

/-- A piece of the native code of the sockets, with what the outside answers to it: a
method that a script calls, a select callback up to the call of its handler and what it
does behind it, a finaliser; or time passes. -/
inductive NativeLabel
  | script (c : ScriptCall)
  | callback (d : Dispatch) (r : CallbackReplies)
  | finish (d : Dispatch)
  | finalise (obj : ObjId)
  | elapse (duration : Timespec)

namespace Process

/-- The process behind it; `none` where a method is called on an object of another class or
a callback on one that is not live. -/
def native (p : Process) : NativeLabel → Option Process
  | .script c => (c.exec p).map Prod.fst
  | .callback d r => if p.isLive d.obj then (d.call p r).map Prod.fst else none
  | .finish d => some (d.finish p)
  | .finalise o =>
      if p.isLive o then some (if p.isTcp o then tcpSocketDT p o else udpSocketDT p o) else none
  | .elapse duration => some (p.elapse duration)

/-- The pieces as a relation: any of them may come next. -/
def Native (p : Process) (l : NativeLabel) (q : Process) : Prop := p.native l = some q

variable {p q : Process} {l : NativeLabel}

/-- **Each piece consists of acts of one object**, or time passes. -/
theorem native_acts (h : Owned p) (hs : Native p l q) :
    (∃ A, Acts A p q) ∨ ∃ duration, q = p.elapse duration := by
  cases l with
  | script c =>
      obtain ⟨q', hq, rfl⟩ := Option.map_eq_some_iff.1 hs
      exact Or.inl ⟨_, c.exec_acts h hq⟩
  | callback d r =>
      dsimp only [Native, native] at hs
      split_ifs at hs
      obtain ⟨q', hq, rfl⟩ := Option.map_eq_some_iff.1 hs
      exact Or.inl ⟨_, d.call_acts h hq⟩
  | finish d =>
      obtain rfl := Option.some.inj hs
      exact Or.inl ⟨_, d.finish_acts h⟩
  | finalise o =>
      dsimp only [Native, native] at hs
      split_ifs at hs
      · obtain rfl := Option.some.inj hs
        exact Or.inl ⟨_, tcpSocketDT_acts h⟩
      · obtain rfl := Option.some.inj hs
        exact Or.inl ⟨_, udpSocketDT_acts⟩
  | elapse duration => exact Or.inr ⟨duration, (Option.some.inj hs).symm⟩

/-- Each piece keeps ownership. -/
theorem native_owned (h : Owned p) (hs : Native p l q) : Owned q := by
  obtain ⟨A, hacts⟩ | ⟨duration, rfl⟩ := native_acts h hs
  · exact hacts.owned h
  · exact h.elapse duration

end Process

/-- A peer given by an address, and a port. -/
def peerArgs : List JSVal := [.string [0x31], .int 80]

/-- The outside hands out a descriptor and answers `connect(2)`. -/
def connectAnswers (socket : ℤ) (connect : ConnectReply) : ConnectReplies :=
  ⟨0, 0, 0, none, socket, true, true, connect, true⟩

namespace World

variable {w w' : World} {l : Label}

/-- A step runs a piece of native code, or leaves the process as it is. -/
theorem step_native (hs : Step w l w') :
    w'.proc = w.proc ∨ ∃ nl, Process.Native w.proc nl w'.proc := by
  cases l with
  | dispatch r =>
      obtain ⟨d, pending, rest, p, exit, -, hlive, hcall, rfl⟩ := step_dispatch hs
      refine Or.inr ⟨.callback d r, ?_⟩
      dsimp only [Process.Native, Process.native]
      rw [if_pos hlive, hcall]
      rfl
  | returned =>
      obtain ⟨d, inv, rest, -, rfl⟩ := step_returned hs
      exact Or.inr ⟨.finish d, rfl⟩
  | script c =>
      obtain ⟨-, q, hq, rfl⟩ := step_script hs
      refine Or.inr ⟨.script c, ?_⟩
      dsimp only [Process.Native, Process.native]
      rw [hq]
      rfl
  | finalise o =>
      obtain ⟨hlive, -, rfl⟩ := step_finalise hs
      exact Or.inr ⟨.finalise o, if_pos hlive⟩
  | handleSelect a =>
      obtain ⟨loop, rest, -, -, ⟨-, rfl⟩ | ⟨-, pending, duration, -, rfl⟩⟩ := step_handleSelect hs
      · exact Or.inl rfl
      · exact Or.inr ⟨.elapse duration, rfl⟩
  | _ => exact Or.inl (step_control hs trivial).1

/-- **The runs of the world are runs of its native code.** -/
theorem run_native {ls : List Label} (hrun : Run Step start ls w) :
    ∃ nls, Run Process.Native .start nls w.proc := by
  refine hrun.simulates (f := World.proc) (J := fun _ => True) ?_ trivial
  intro w l w' _ hs
  refine ⟨trivial, ?_⟩
  obtain heq | ⟨nl, hnl⟩ := step_native hs
  · exact ⟨[], heq ▸ .nil _⟩
  · exact ⟨[nl], .single hnl⟩

/-- **A step runs native code of its actor, or none.** -/
theorem step_acts (h : Owned w.proc) (hs : Step w l w') :
    (∃ A, w.actor l = some A ∧ Acts A w.proc w'.proc) ∨
      w.actor l = none ∧ (w'.proc = w.proc ∨
        ∃ a duration, l = .handleSelect a ∧ w'.proc = w.proc.elapse duration) := by
  cases l with
  | dispatch r =>
      obtain ⟨d, pending, rest, p, exit, hstack, -, hcall, rfl⟩ := step_dispatch hs
      refine Or.inl ⟨d.obj, ?_, d.call_acts h hcall⟩
      simp only [actor, hstack]
  | returned =>
      obtain ⟨d, inv, rest, hstack, rfl⟩ := step_returned hs
      refine Or.inl ⟨d.obj, ?_, d.finish_acts h⟩
      simp only [actor, hstack]
  | script c =>
      obtain ⟨-, q, hq, rfl⟩ := step_script hs
      exact Or.inl ⟨c.obj, rfl, c.exec_acts h hq⟩
  | finalise o =>
      obtain ⟨-, -, rfl⟩ := step_finalise hs
      refine Or.inl ⟨o, rfl, ?_⟩
      dsimp only
      split_ifs
      · exact tcpSocketDT_acts h
      · exact udpSocketDT_acts
  | handleSelect a =>
      obtain ⟨loop, rest, -, -, ⟨-, rfl⟩ | ⟨-, pending, duration, -, rfl⟩⟩ := step_handleSelect hs
      · exact Or.inr ⟨rfl, Or.inl rfl⟩
      · exact Or.inr ⟨rfl, Or.inr ⟨a, duration, rfl, rfl⟩⟩
  | _ => exact Or.inr ⟨rfl, Or.inl (step_control hs trivial).1⟩

/-- Every step keeps ownership. -/
theorem step_owned (h : Owned w.proc) (hs : Step w l w') : Owned w'.proc := by
  obtain heq | ⟨nl, hnl⟩ := step_native hs
  · rw [heq]
    exact h
  · exact Process.native_owned h hnl

/-- Every step leaves the objects that are not its actor alone. -/
theorem step_frame (h : Owned w.proc) (hs : Step w l w') {A : ObjId} (hA : w.actor l = some A) :
    Frame A w.proc w'.proc := by
  rcases step_acts h hs with ⟨A', hA', hacts⟩ | ⟨hA', -⟩
  · cases hA.symm.trans hA'
    exact hacts.frame h
  · rw [hA] at hA'
    cases hA'

/-- **Ownership in every reachable state.** -/
theorem owned_of_run {ls : List Label} (hrun : Run Step start ls w) : Owned w.proc :=
  hrun.invariant (P := fun w => Owned w.proc) (fun _ _ _ h hs => step_owned h hs) Owned.start

/-- **Non-interference.**  In every reachable state, a step that runs the native code of
an object `A` leaves the private data of every other object as it is, and the registration
of its descriptor, if that is open.  A descriptor number in use is held by one object, so
that a registration for it is of this object.  Source: `ps_AddSelect` and
`ps_RemoveSelect` (lines 339-404 of `js/src/ext/psselect.c`), called from
`js/src/ext/pstcpsocket.c` (lines 262-399 and 632-718) and from `UDPSocket_Close`
(lines 468-484 of `js/src/ext/psudpsocket.c`). -/
theorem non_interference {ls : List Label} (hrun : Run Step start ls w) (hs : Step w l w')
    {A B : ObjId} (hA : w.actor l = some A) (hB : B ≠ A) :
    w'.proc.objs B = w.proc.objs B ∧
      ∀ n, w.proc.fdOf B = some n → (openedBy w.proc.log n).isSome = true →
        w'.proc.registry.lookup n = w.proc.registry.lookup n := by
  have h := owned_of_run hrun
  have hframe := step_frame h hs hA
  refine ⟨hframe.objs B hB, fun n hn hopen => ?_⟩
  rcases h.held hn with rfl | hown
  · obtain ⟨o, ho⟩ := Option.isSome_iff_exists.1 hopen
    exact absurd (openedBy_nonneg ho) (by decide)
  · exact hframe.registry n B hB hown

/-- Closing one of two sockets leaves the registration of the other. -/
theorem non_interference_close : ∃ w w' : World,
    Step w (.script (.close 0)) w' ∧ (w.proc.registry.lookup 4).isSome = true ∧
      w'.proc.registry.lookup 4 = w.proc.registry.lookup 4 := by
  have hrun : ∃ w w', Run Step start [.execute, .script (.newTCPSocket 0 [] true),
      .script (.connect 0 peerArgs (connectAnswers 3 .inProgress)),
      .script (.newTCPSocket 1 [] true),
      .script (.connect 1 peerArgs (connectAnswers 4 .inProgress))] w ∧
        Step w (.script (.close 0)) w' ∧ w.proc.fdOf 1 = some 4 ∧
        (openedBy w.proc.log 4).isSome = true ∧ (w.proc.registry.lookup 4).isSome = true :=
    ⟨_, _, run_of_foldlM rfl, rfl, rfl, rfl, rfl⟩
  obtain ⟨w, w', hrun, hs, hfd, hopen, hreg⟩ := hrun
  exact ⟨w, w', hs, hreg, (non_interference hrun hs rfl (by decide)).2 4 hfd hopen⟩

end World
end ProntoScript
