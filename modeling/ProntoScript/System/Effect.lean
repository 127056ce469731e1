/-
# What a step does to its actor

The native code a step runs changes the process in one of a few ways, listed once
with what decides between them (`World.Effect`, `step_effect`); results about
descriptors, registrations and states are case analyses over this list.  Most
calls are `Quiet`: they change neither the descriptor nor the state of the object
nor the registry.
-/

import ProntoScript.System.Safety

namespace ProntoScript

open Transition (Run)

/-- The descriptor, the state, the registrations and the table are as they were. -/
structure Quiet (A : ObjId) (p p' : Process) : Prop where
  fd : p'.fdOf A = p.fdOf A
  tcp : ∀ t', p'.tcp? A = some t' → ∃ t, p.tcp? A = some t ∧
    t'.fd = t.fd ∧ t'.state = t.state ∧ t'.blocking = t.blocking
  registry : p'.registry = p.registry
  opened : ∀ n, openedBy p'.log n = openedBy p.log n
  confirmed : ∀ n, confirmed p.log n = true → confirmed p'.log n = true

section

variable {A : ObjId} {p p' : Process} {tcp : TCPSocket}

/-- System calls alone are quiet: they touch no object and no registration. -/
theorem Calls.quiet (h : Calls p p') : Quiet A p p' where
  fd := by rw [Process.fdOf, h.objs]; rfl
  tcp t' ht' := ⟨t', by rwa [Process.tcp?, h.objs] at ht', rfl, rfl, rfl⟩
  registry := h.registry
  opened := h.opened
  confirmed := h.confirmed

/-- Nothing is quiet. -/
theorem Quiet.refl (A : ObjId) (p : Process) : Quiet A p p := (Calls.refl p).quiet

/-- Storing a handler is quiet. -/
theorem Quiet.of_setTcp {tcp' : TCPSocket} (ht : p.tcp? A = some tcp) (hfd : tcp'.fd = tcp.fd)
    (hst : tcp'.state = tcp.state) (hb : tcp'.blocking = tcp.blocking) :
    Quiet A p (p.setTcp A tcp') where
  fd := by
    rw [Process.fdOf, Process.setTcp_objs_self, Process.fdOf_of_tcp? ht, ← hfd]
    rfl
  tcp t' ht' := by
    rw [Process.tcp?, Process.setTcp_objs_self] at ht'
    obtain rfl := Option.some.inj ht'
    exact ⟨tcp, ht, hfd, hst, hb⟩
  registry := rfl
  opened _ := rfl
  confirmed _ h := h

/-- Data of a `UDPSocket` that keep its descriptor are quiet. -/
theorem Quiet.of_setUdp {udp udp' : UDPSocket} (hu : p.udp? A = some udp) (hfd : udp'.fd = udp.fd) :
    Quiet A p (p.setUdp A udp') where
  fd := by
    rw [Process.fdOf, Process.setUdp_objs_self, Process.fdOf_of_udp? hu, ← hfd]
    rfl
  tcp t' ht' := by
    rw [Process.tcp?, Process.setUdp_objs_self] at ht'
    cases ht'
  registry := rfl
  opened _ := rfl
  confirmed _ h := h

end

/-- The calls that only read, write or store a handler. -/
def ScriptCall.isQuiet : ScriptCall → Bool
  | setTCPSocket _ _ _ | setUDPSocket _ _ _ | read _ _ _ _ | write _ _ _ | udpSend _ _ _ => true
  | _ => false

/-- The process after a `TCPSocket` was closed: no registration, no descriptor. -/
def Process.dropTcp (p : Process) (A : ObjId) (tcp tcp' : TCPSocket) : Process :=
  ((p.psRemoveSelect tcp.fd).shut A tcp.fd).setTcp A { tcp' with fd := -1 }

/-- The process after a `UDPSocket` was closed. -/
def Process.dropUdp (p : Process) (A : ObjId) (udp : UDPSocket) : Process :=
  ((p.psRemoveSelect udp.fd).sys (.close A udp.fd)).setUdp A { udp with fd := -1 }

namespace World

/-- What a step does to the process on behalf of its actor. -/
inductive Effect (w : World) (A : ObjId) : Label → Process → Prop
  | called {c : ScriptCall} {p' : Process} (hc : c.isQuiet = true) (hq : Quiet A w.proc p') :
      Effect w A (.script c) p'
  | newTcp {argv : List JSVal} {mem : Bool} (hnew : w.proc.objs A = .unborn) :
      Effect w A (.script (.newTCPSocket A argv mem)) (w.proc.setObj A
        (.live (.tcpSocket (tcpSocketNew (tcpSocketBlocking argv) mem))))
  | newUdpRefused {argv : List JSVal} {r : UdpReplies} (hnew : w.proc.objs A = .unborn)
      (hnum : typeOfValue (argv.headD .void) = .number) :
      Effect w A (.script (.newUDPSocket A argv r)) (w.proc.setObj A (.live (.udpSocket none)))
  | newUdp {argv : List JSVal} {r : UdpReplies} {p' : Process} (hnew : w.proc.objs A = .unborn)
      (hnum : typeOfValue (argv.headD .void) ≠ .number) (hfresh : w.proc.Fresh r.socket)
      (hq : UdpLeaves w.proc A (udpOpens r) r.socket p')
      (hopened : ∀ m, openedBy p'.log m =
        if 0 ≤ r.socket ∧ r.socket = m then some A else openedBy w.proc.log m) :
      Effect w A (.script (.newUDPSocket A argv r)) p'
  | connectRefused {argv : List JSVal} {r : ConnectReplies}
      (hno : w.proc.tcp? A = none ∨ (connectTarget r argv).isOk = false) :
      Effect w A (.script (.connect A argv r)) w.proc
  | connected {argv : List JSVal} {r : ConnectReplies} {tcp : TCPSocket} {timeout : ℤ}
      {q : Process × Native} (ht : w.proc.tcp? A = some tcp)
      (htarget : (connectTarget r argv).isOk = true)
      (hfresh : (tcpSocketReset w.proc A tcp).1.Fresh r.socket)
      (hq : ConnectLeaves (w.proc.asked A tcp r.socket) A (tcp.asked r.socket)
        (connectEnd tcp.blocking r) timeout r.mem q) :
      Effect w A (.script (.connect A argv r)) q.1
  | closeIdle (hidle : ∀ tcp, w.proc.tcp? A = some tcp → tcp.fd = -1) :
      Effect w A (.script (.close A)) w.proc
  | closed {tcp : TCPSocket} (ht : w.proc.tcp? A = some tcp) (hfd : tcp.fd ≠ -1) :
      Effect w A (.script (.close A)) (w.proc.dropTcp A tcp tcp)
  | udpCloseIdle (hidle : ∀ udp, w.proc.udp? A = some udp → udp.fd = -1) :
      Effect w A (.script (.udpClose A)) w.proc
  | udpClosed {udp : UDPSocket} (hu : w.proc.udp? A = some udp) (hfd : udp.fd ≠ -1) :
      Effect w A (.script (.udpClose A)) (w.proc.dropUdp A udp)
  | dispatched {d : Dispatch} {pending : List Dispatch} {rest : List Activation}
      {r : CallbackReplies} {p' : Process} (hstack : w.stack = .pass (d :: pending) :: rest)
      (hobj : d.obj = A) (hcb : d.callback = .tcpSocketSelectCallback → w.proc.tcp? d.obj = none)
      (hq : Quiet A w.proc p') : Effect w A (.dispatch r) p'
  | callback {d : Dispatch} {pending : List Dispatch} {rest : List Activation}
      {r : CallbackReplies} {tcp : TCPSocket} {q : Process × CallbackExit}
      (hstack : w.stack = .pass (d :: pending) :: rest) (hobj : d.obj = A)
      (hcb : d.callback = .tcpSocketSelectCallback) (ht : w.proc.tcp? d.obj = some tcp)
      (hq : CallbackStep w.proc A tcp r.tcp q) : Effect w A (.dispatch r) q.1
  | returned {d : Dispatch} {inv : Invocation} {rest : List Activation}
      (hstack : w.stack = .handler d inv :: rest) (hobj : d.obj = A)
      (htcp : d.callback = .tcpSocketSelectErrorCallback →
        ∀ tcp, w.proc.tcp? A = some tcp → tcp.fd = -1) :
      Effect w A .returned w.proc
  | returnedTcp {d : Dispatch} {inv : Invocation} {rest : List Activation} {tcp : TCPSocket}
      (hstack : w.stack = .handler d inv :: rest) (hobj : d.obj = A)
      (hcb : d.callback = .tcpSocketSelectErrorCallback) (ht : w.proc.tcp? A = some tcp)
      (hfd : tcp.fd ≠ -1) : Effect w A .returned (w.proc.dropTcp A tcp tcp)
  | returnedUdp {d : Dispatch} {inv : Invocation} {rest : List Activation} {udp : UDPSocket}
      (hstack : w.stack = .handler d inv :: rest) (hobj : d.obj = A)
      (hcb : d.callback = .udpSocketSelectErrorCallback) (hu : w.proc.udp? A = some udp)
      (hfd : udp.fd ≠ -1) : Effect w A .returned (w.proc.dropUdp A udp)
  | finalised {p' : Process} (hlive : w.proc.isLive A = true)
      (hobjs : p'.objs A = .finalised) (hreg : p'.registry = w.proc.registry)
      (hopened : ∀ m, openedBy p'.log m =
        if w.proc.fdOf A = some m then none else openedBy w.proc.log m) :
      Effect w A (.finalise A) p'

section

variable {w w' : World} {l : Label} {A : ObjId}

/-- `TCPSocket_Close` drops the descriptor, if there is one. -/
theorem tcpSocketClose_cases (p : Process) (A : ObjId) :
    (tcpSocketClose p A).1 = p ∧ (∀ tcp, p.tcp? A = some tcp → tcp.fd = -1) ∨
      ∃ tcp, p.tcp? A = some tcp ∧ tcp.fd ≠ -1 ∧ (tcpSocketClose p A).1 = p.dropTcp A tcp tcp := by
  unfold tcpSocketClose
  cases ht : p.tcp? A with
  | none => exact Or.inl ⟨rfl, fun _ h => by cases h⟩
  | some tcp =>
      dsimp only
      split_ifs with hfd
      · exact Or.inr ⟨tcp, rfl, hfd, rfl⟩
      · refine Or.inl ⟨rfl, ?_⟩
        rintro _ ⟨⟩
        exact not_not.1 hfd

/-- So does `UDPSocket_Close`. -/
theorem udpSocketClose_cases (p : Process) (A : ObjId) :
    (udpSocketClose p A).1 = p ∧ (∀ udp, p.udp? A = some udp → udp.fd = -1) ∨
      ∃ udp, p.udp? A = some udp ∧ udp.fd ≠ -1 ∧ (udpSocketClose p A).1 = p.dropUdp A udp := by
  unfold udpSocketClose
  cases hu : p.udp? A with
  | none => exact Or.inl ⟨rfl, fun _ h => by cases h⟩
  | some udp =>
      dsimp only
      split_ifs with hfd
      · exact Or.inr ⟨udp, rfl, hfd, rfl⟩
      · refine Or.inl ⟨rfl, ?_⟩
        rintro _ ⟨⟩
        exact not_not.1 hfd

/-- The table of a process that closed a descriptor its object held. -/
theorem openedBy_drop {log : List SysCall} {fd m : ℤ} (hfd : fd = -1 ∨ openedBy log fd = some A) :
    openedBy (.close A fd :: log) m = if fd = m then none else openedBy log m := by
  rw [openedBy_close]
  rcases hfd with rfl | hopen
  · rw [if_neg (by omega)]
    split_ifs with hm
    · subst hm
      cases ho : openedBy log (-1) with
      | none => rfl
      | some B => exact absurd (openedBy_nonneg ho) (by decide)
    · rfl
  · have hnn := openedBy_nonneg hopen
    simp only [hnn, true_and]

/-- A finaliser closes the descriptor of the object, and the object is gone. -/
theorem finalise_effect (h : Owned w.proc) (hlive : w.proc.isLive A = true) :
    Effect w A (.finalise A)
      (if w.proc.isTcp A then tcpSocketDT w.proc A else udpSocketDT w.proc A) := by
  obtain ⟨s, hs⟩ : ∃ s, w.proc.objs A = .live s := by
    unfold Process.isLive at hlive
    split at hlive
    · exact ⟨_, ‹_›⟩
    · cases hlive
  have hclosed : ∀ fd m, w.proc.fdOf A = some fd → openedBy (.close A fd :: w.proc.log) m =
      if w.proc.fdOf A = some m then none else openedBy w.proc.log m := fun fd m hfd => by
    rw [openedBy_drop (h.held hfd), hfd]
    simp only [Option.some.injEq]
  have hkept : ∀ m, (w.proc.fdOf A = none ∨ w.proc.fdOf A = some (-1)) → openedBy w.proc.log m =
      if w.proc.fdOf A = some m then none else openedBy w.proc.log m := fun m hfd => by
    rcases hfd with hfd | hfd
    · rw [hfd, if_neg (by simp)]
    · rw [hfd]
      split_ifs with hm
      · cases Option.some.inj hm
        cases ho : openedBy w.proc.log (-1) with
        | none => rfl
        | some B => exact absurd (openedBy_nonneg ho) (by decide)
      · rfl
  rcases s with priv | priv
  · have hty : w.proc.isTcp A = true := by simp [Process.isTcp, hs]
    rw [if_pos hty]
    unfold tcpSocketDT
    cases ht : w.proc.tcp? A with
    | none =>
        have hnone : w.proc.fdOf A = none := by
          rw [Process.tcp?, hs] at ht
          rw [Process.fdOf, hs]
          cases ht
          rfl
        exact .finalised hlive (Process.setObj_objs_self ..) rfl fun m => hkept m (Or.inl hnone)
    | some tcp =>
        have hfd := Process.fdOf_of_tcp? ht
        dsimp only
        split_ifs with hne
        · refine .finalised hlive (Process.setObj_objs_self ..) rfl fun m => ?_
          rw [Process.setObj_log, Process.shut, Process.sys_log, ← hclosed _ m hfd, openedBy_close,
            openedBy_close, Process.sys_log, openedBy_use rfl rfl]
        · rw [not_not.1 hne] at hfd
          exact .finalised hlive (Process.setObj_objs_self ..) rfl fun m => hkept m (Or.inr hfd)
  · have hty : w.proc.isTcp A = false := by simp [Process.isTcp, hs]
    rw [hty, if_neg (by decide)]
    unfold udpSocketDT
    cases hu : w.proc.udp? A with
    | none =>
        have hnone : w.proc.fdOf A = none := by
          rw [Process.udp?, hs] at hu
          rw [Process.fdOf, hs]
          cases hu
          rfl
        exact .finalised hlive (Process.setObj_objs_self ..) rfl fun m => hkept m (Or.inl hnone)
    | some udp =>
        have hfd := Process.fdOf_of_udp? hu
        dsimp only
        split_ifs with hne
        · exact .finalised hlive (Process.setObj_objs_self ..) rfl fun m => hclosed _ m hfd
        · rw [not_not.1 hne] at hfd
          exact .finalised hlive (Process.setObj_objs_self ..) rfl fun m => hkept m (Or.inr hfd)

/-- A call of a script has one of the effects. -/
theorem exec_effect {c : ScriptCall} {q : Process × List TcpEvent} (h : Owned w.proc)
    (hq : c.exec w.proc = some q) : Effect w c.obj (.script c) q.1 := by
  cases ScriptCall.exec_runs hq with
  | newTCPSocket obj argv mem hnew => exact .newTcp hnew
  | newUDPSocket obj argv r q' hnew hq' =>
      have hleaves := udpSocketCT_leaves hq'
      split_ifs at hleaves with hnum
      · dsimp only
        rw [hleaves]
        exact .newUdpRefused hnew.1 hnum
      · exact .newUdp hnew.1 hnum hnew.2 hleaves.1 hleaves.2
  | setTCPSocket obj slot vp q' _ hq' =>
      refine .called rfl ?_
      rcases tcpSocketSetProperty_acts h hq' with rfl | ⟨tcp, hd, ht, rfl, -⟩
      · exact .refl obj _
      · cases hd <;> exact .of_setTcp ht rfl rfl rfl
  | setUDPSocket obj slot vp q' _ hq' =>
      refine .called rfl ?_
      rcases udpSocketSetProperty_acts h hq' with rfl | ⟨udp, udp', hu, hfd, rfl, -⟩
      · exact .refl obj _
      · exact .of_setUdp hu hfd
  | connect obj argv r hc =>
      dsimp only
      cases htarget : connectTarget r argv with
      | error e =>
          rw [(tcpSocketConnect_of_error htarget).1]
          exact .connectRefused (Or.inr (by rw [htarget]; rfl))
      | ok target =>
          cases ht : w.proc.tcp? obj with
          | none =>
              have hq : (tcpSocketConnect w.proc obj argv r).1 = w.proc := by
                unfold tcpSocketConnect
                rw [ht]
              rw [hq]
              exact .connectRefused (Or.inl ht)
          | some tcp =>
              have hfresh := hc.2
              rw [Process.reset, ht] at hfresh
              rw [tcpSocketConnect_of_target ht htarget]
              exact .connected ht (by rw [htarget]; rfl) hfresh tcpSocketConnectTo_leaves
  | close obj _ =>
      dsimp only
      rcases tcpSocketClose_cases w.proc obj with ⟨heq, hidle⟩ | ⟨tcp, ht, hfd, heq⟩
      · rw [heq]
        exact .closeIdle hidle
      · rw [heq]
        exact .closed ht hfd
  | read obj argv stray replies q' _ hq' => exact .called rfl (tcpSocketRead_acts h hq').calls.quiet
  | write obj argv sent _ => exact .called rfl (tcpSocketWrite_acts h).calls.quiet
  | udpClose obj _ =>
      dsimp only
      rcases udpSocketClose_cases w.proc obj with ⟨heq, hidle⟩ | ⟨udp, hu, hfd, heq⟩
      · rw [heq]
        exact .udpCloseIdle hidle
      · rw [heq]
        exact .udpClosed hu hfd
  | udpSend obj argv r _ => exact .called rfl (udpSocketSend_acts h).calls.quiet

/-- A dispatch has one of the effects. -/
theorem dispatch_effect {d : Dispatch} {pending : List Dispatch} {rest : List Activation}
    {r : CallbackReplies} {q : Process × CallbackExit} (h : Owned w.proc)
    (hstack : w.stack = .pass (d :: pending) :: rest) (hq : d.call w.proc r = some q) :
    Effect w d.obj (.dispatch r) q.1 := by
  unfold Dispatch.call at hq
  split at hq
  · rename_i hcb
    cases hq
    cases ht : w.proc.tcp? d.obj with
    | none =>
        refine .dispatched hstack rfl (fun _ => ht) ?_
        unfold tcpSocketSelectCallback
        rw [ht]
        exact .refl _ _
    | some tcp => exact .callback hstack rfl hcb ht (tcpSocketSelectCallback_step h ht)
  · rename_i hcb
    cases hq
    exact .dispatched hstack rfl (fun hcb' => by cases hcb.symm.trans hcb') (.refl _ _)
  · rename_i hcb
    exact .dispatched hstack rfl (fun hcb' => by cases hcb.symm.trans hcb')
      (udpSocketSelectCallback_acts h hq).calls.quiet
  · rename_i hcb
    cases hq
    exact .dispatched hstack rfl (fun hcb' => by cases hcb.symm.trans hcb') (.refl _ _)

/-- The return of a handler has one of the effects. -/
theorem returned_effect {d : Dispatch} {inv : Invocation} {rest : List Activation}
    (hstack : w.stack = .handler d inv :: rest) :
    Effect w d.obj .returned (d.finish w.proc) := by
  unfold Dispatch.finish
  split
  · rename_i hcb
    rcases tcpSocketClose_cases w.proc d.obj with ⟨heq, hidle⟩ | ⟨tcp, ht, hfd, heq⟩
    · rw [heq]
      exact .returned hstack rfl fun _ => hidle
    · rw [heq]
      exact .returnedTcp hstack rfl hcb ht hfd
  · rename_i hcb
    rcases udpSocketClose_cases w.proc d.obj with ⟨heq, hidle⟩ | ⟨udp, hu, hfd, heq⟩
    · rw [heq]
      exact .returned hstack rfl fun hcb' => by cases hcb.symm.trans hcb'
    · rw [heq]
      exact .returnedUdp hstack rfl hcb hu hfd
  · rename_i hcb _
    exact .returned hstack rfl fun hcb' => absurd hcb' hcb

/-- **Every step has one of the effects on its actor**, or it has no actor and at most
counts down the timeouts. -/
theorem step_effect (h : Owned w.proc) (hs : Step w l w') :
    (∃ A, w.actor l = some A ∧ Effect w A l w'.proc) ∨
      w.actor l = none ∧ (w'.proc = w.proc ∨ ∃ duration, w'.proc = w.proc.elapse duration) := by
  cases l with
  | dispatch r =>
      obtain ⟨d, pending, rest, p, exit, hstack, -, hcall, rfl⟩ := step_dispatch hs
      refine Or.inl ⟨d.obj, ?_, dispatch_effect h hstack hcall⟩
      simp only [actor, hstack]
  | returned =>
      obtain ⟨d, inv, rest, hstack, rfl⟩ := step_returned hs
      refine Or.inl ⟨d.obj, ?_, returned_effect hstack⟩
      simp only [actor, hstack]
  | script c =>
      obtain ⟨-, q, hq, rfl⟩ := step_script hs
      exact Or.inl ⟨c.obj, rfl, exec_effect h hq⟩
  | finalise o =>
      obtain ⟨hlive, -, rfl⟩ := step_finalise hs
      exact Or.inl ⟨o, rfl, finalise_effect h hlive⟩
  | _ =>
      rcases step_acts h hs with ⟨A, hA, -⟩ | ⟨hidle, hsame | ⟨a, duration, -, hpass⟩⟩
      · cases hA
      · exact Or.inr ⟨hidle, Or.inl hsame⟩
      · exact Or.inr ⟨hidle, Or.inr ⟨duration, hpass⟩⟩

end

/-! ### Conditions on steps -/

/-- A condition on a `connect` that gets as far as `socket`. -/
def AtConnect (w : World) (o : ObjId) (argv : List JSVal) (r : ConnectReplies)
    (X : TCPSocket → Prop) : Prop :=
  (connectTarget r argv).isOk = true → ∀ tcp, w.proc.tcp? o = some tcp → X tcp

/-- A condition on the call of `TCPSocket_SelectCallback` for the next copy. -/
def AtCallback (w : World) (X : ObjId → TCPSocket → Prop) : Prop :=
  ∀ d pending rest tcp, w.stack = .pass (d :: pending) :: rest →
    d.callback = .tcpSocketSelectCallback → w.proc.tcp? d.obj = some tcp → X d.obj tcp

section

variable {w : World} {A : ObjId} {argv : List JSVal} {r : ConnectReplies} {tcp : TCPSocket}
  {d : Dispatch} {pending : List Dispatch} {rest : List Activation}

/-- A `connect` that is refused, or called on an object without data, starts nothing. -/
theorem atConnect_refused {X : TCPSocket → Prop}
    (hno : w.proc.tcp? A = none ∨ (connectTarget r argv).isOk = false) :
    AtConnect w A argv r X := by
  intro htarget tcp ht
  rcases hno with hno | hno
  · cases hno.symm.trans ht
  · cases hno.symm.trans htarget

/-- A `connect` that is not refused starts on the data of its socket. -/
theorem atConnect_iff {X : TCPSocket → Prop} (ht : w.proc.tcp? A = some tcp)
    (htarget : (connectTarget r argv).isOk = true) : AtConnect w A argv r X ↔ X tcp := by
  refine ⟨fun h => h htarget tcp ht, fun hX _ tcp' ht' => ?_⟩
  obtain rfl := Option.some.inj (ht.symm.trans ht')
  exact hX

/-- A dispatch that calls nothing is at no callback. -/
theorem atCallback_idle {X : ObjId → TCPSocket → Prop} {r : CallbackReplies}
    (h : w.actor (.dispatch r) = none) : AtCallback w X := by
  intro d pending rest tcp hstack
  rw [actor, hstack] at h
  cases h

/-- A dispatch of another callback, or to a socket without data, is at no select callback
of a `TCPSocket`. -/
theorem atCallback_dispatched {X : ObjId → TCPSocket → Prop}
    (hstack : w.stack = .pass (d :: pending) :: rest)
    (hcb : d.callback = .tcpSocketSelectCallback → w.proc.tcp? d.obj = none) :
    AtCallback w X := by
  intro d' pending' rest' tcp hstack' hcb' ht
  obtain rfl := next_unique hstack hstack'
  cases (hcb hcb').symm.trans ht

/-- A dispatch of the select callback finds the data of its socket. -/
theorem atCallback_iff {X : ObjId → TCPSocket → Prop}
    (hstack : w.stack = .pass (d :: pending) :: rest)
    (hcb : d.callback = .tcpSocketSelectCallback) (ht : w.proc.tcp? d.obj = some tcp) :
    AtCallback w X ↔ X d.obj tcp := by
  refine ⟨fun h => h d pending rest tcp hstack hcb ht, ?_⟩
  intro hX d' pending' rest' tcp' hstack' _ ht'
  obtain rfl := next_unique hstack hstack'
  obtain rfl := Option.some.inj (ht.symm.trans ht')
  exact hX

end

/-! ### Properties of single objects -/

/-- A property of an object that only acts of this object can break. -/
structure Local (Q : Process → ObjId → Prop) : Prop where
  frame : ∀ {A B : ObjId} {p p' : Process}, Owned p → Frame A p p' → B ≠ A → Q p B → Q p' B
  elapse : ∀ {B : ObjId} {p : Process} (duration : Timespec), Q p B → Q (p.elapse duration) B

section

variable {Q : Process → ObjId → Prop} {G : World → Label → Prop} {w w' : World} {l : Label}

/-- **Only the actor of a step matters for a local property.**  If every effect keeps
`Q` for its actor exactly where `G` holds, a step from a state where all objects
have `Q` leads to one exactly where `G` holds. -/
theorem step_local (hQ : Local Q)
    (heffect : ∀ w l A p', Owned w.proc → Owned p' → (∀ o, Q w.proc o) → Effect w A l p' →
      (Q p' A ↔ G w l))
    (hidle : ∀ w l, w.actor l = none → G w l) (h : Owned w.proc) (hall : ∀ o, Q w.proc o)
    (hs : Step w l w') : (∀ o, Q w'.proc o) ↔ G w l := by
  rcases step_effect h hs with ⟨A, hA, heff⟩ | ⟨hA, heq⟩
  · rw [← heffect w l A w'.proc h (step_owned h hs) hall heff]
    refine ⟨fun hall' => hall' A, fun hQA o => ?_⟩
    by_cases ho : o = A
    · rwa [ho]
    · exact hQ.frame h (step_frame h hs hA) ho (hall o)
  · refine iff_of_true (fun o => ?_) (hidle w l hA)
    rcases heq with heq | ⟨duration, heq⟩
    · rw [heq]
      exact hall o
    · rw [heq]
      exact hQ.elapse duration (hall o)

/-- **The runs that keep a local property** of all objects are those whose steps all
meet the condition. -/
theorem run_local {P : World → Prop} (hQ : Local Q)
    (heffect : ∀ w l A p', Owned w.proc → Owned p' → (∀ o, Q w.proc o) → Effect w A l p' →
      (Q p' A ↔ G w l))
    (hidle : ∀ w l, w.actor l = none → G w l) (hstart : ∀ o, Q start.proc o)
    (hP : ∀ w, Owned w.proc → (P w ↔ ∀ o, Q w.proc o)) :
    (∀ ls w, Run (Transition.Guarded G Step) start ls w → P w) ∧
      ∀ ls w, Run (Transition.Guarded G Step) start ls w ↔
        Run (Transition.Keeping P Step) start ls w := by
  have howned : ∀ w l w', Owned w.proc → Step w l w' → Owned w'.proc := fun _ _ _ h hs =>
    step_owned h hs
  have hiff : ∀ w l w', Owned w.proc → P w → Step w l w' → (P w' ↔ G w l) := by
    intro w l w' h hall hs
    rw [hP w' (howned w l w' h hs)]
    exact step_local hQ heffect hidle h ((hP w h).1 hall) hs
  have hfirst : P start := (hP start Owned.start).2 hstart
  refine ⟨fun ls w hrun => ?_, fun ls w => ?_⟩
  · exact hrun.guarded_invariant (J := fun w => Owned w.proc) howned
      (fun w l w' h hall hg hs => (hiff w l w' h hall hs).2 hg) Owned.start hfirst
  · exact Transition.run_guarded_iff_keeping (J := fun w => Owned w.proc) howned hiff Owned.start
      hfirst

end

end World

/-! ### What the effects leave of their actor -/

section

variable {A : ObjId} {p : Process} {tcp tcp' : TCPSocket} {udp : UDPSocket}

@[simp] theorem dropTcp_registry :
    (p.dropTcp A tcp tcp').registry = p.registry.erase tcp.fd := rfl

@[simp] theorem dropTcp_tcp? : (p.dropTcp A tcp tcp').tcp? A = some { tcp' with fd := -1 } :=
  Process.setTcp_tcp?

/-- A socket that drops its descriptor closes this one and no other. -/
theorem openedBy_dropTcp {m : ℤ} (hfd : tcp.fd = -1 ∨ openedBy p.log tcp.fd = some A) :
    openedBy (p.dropTcp A tcp tcp').log m = if tcp.fd = m then none else openedBy p.log m := by
  rw [← World.openedBy_drop hfd]
  simp only [Process.dropTcp, Process.setTcp_log, Process.shut, Process.sys_log,
    Process.psRemoveSelect_log, openedBy_close]
  rw [openedBy_use rfl rfl]

@[simp] theorem dropUdp_registry :
    (p.dropUdp A udp).registry = p.registry.erase udp.fd := rfl

@[simp] theorem dropUdp_objs : (p.dropUdp A udp).objs A =
    .live (.udpSocket (some { udp with fd := -1 })) := Process.setUdp_objs_self ..

/-- The same for a `UDPSocket`. -/
theorem openedBy_dropUdp {m : ℤ} (hfd : udp.fd = -1 ∨ openedBy p.log udp.fd = some A) :
    openedBy (p.dropUdp A udp).log m = if udp.fd = m then none else openedBy p.log m := by
  rw [← World.openedBy_drop hfd]
  rfl

/-- The object after a `connect` that got as far as `socket`. -/
theorem ConnectLeaves.tcp? {last : ConnectEnd} {timeout : ℤ} {mem : Bool}
    {q : Process × Native} {n : ℤ}
    (hq : ConnectLeaves (p.asked A tcp n) A (tcp.asked n) last timeout mem q) :
    q.1.tcp? A = some { tcp.asked n with state := last.state (tcp.asked n).state } := by
  rw [Process.tcp?, hq.objs, Function.update_self]
  rfl

end

end ProntoScript
