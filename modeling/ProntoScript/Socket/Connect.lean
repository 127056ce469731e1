/-
# What `TCPSocket_Connect` leaves

`connect` checks its arguments and looks the peer up; then it closes an existing
connection, asks for a descriptor and stores it (`Process.asked`), and then the
kernel decides how it ends (`connectEnd`): with a connection, with one in
progress, or with an error.  `ConnectLeaves` says what each end leaves, and
`tcpSocketConnect_acts` that the whole call consists of acts of its object.
-/

import ProntoScript.Socket.Effects

namespace ProntoScript

open Relation (ReflTransGen)

/-- How the calls of `connect` on the new descriptor end. -/
inductive ConnectEnd
  | completed
  | waiting
  | failed
deriving DecidableEq, Repr

/-- How `connect(2)` ends, by the answers of the kernel. -/
def startEnd (blocking : Bool) (r : ConnectReplies) : ConnectEnd :=
  if r.socket < 0 then .failed
  else
    match r.connect with
    | .done => .completed
    | .inProgress => if blocking then .failed else .waiting
    | .failed _ => .failed

/-- How `TCPSocket_Connect` ends once it has asked for a descriptor. -/
def connectEnd (blocking : Bool) (r : ConnectReplies) : ConnectEnd :=
  if !blocking && !(r.getfl && r.setfl) then .failed else startEnd blocking r

/-- Without a descriptor the calls fail. -/
theorem connectEnd_of_neg {blocking : Bool} {r : ConnectReplies} (h : r.socket < 0) :
    connectEnd blocking r = .failed := by
  unfold connectEnd startEnd
  rw [if_pos h, ite_self]

/-- The state that follows an end, from the one before `connect(2)`. -/
def ConnectEnd.state (state : TCPSocketState) : ConnectEnd → TCPSocketState
  | .completed => .connected
  | .waiting => .connecting
  | .failed => state

/-- The registration `connect` makes. -/
def connectEvent (obj : ObjId) (timeout : ℤ) : PSSelectEvent :=
  ⟨PSFDSET_WRITE, obj, .tcpSocketSelectCallback, .tcpSocketSelectErrorCallback, addTimeout timeout⟩

/-- What `connect` stores before it calls `connect(2)`: the new descriptor, and no
connection if there was one. -/
def TCPSocket.asked (tcp : TCPSocket) (socket : ℤ) : TCPSocket :=
  { tcp with
    fd := socket, state := if tcp.state = .connected then .unconnected else tcp.state }

/-- The process at that point. -/
def Process.asked (p : Process) (obj : ObjId) (tcp : TCPSocket) (socket : ℤ) : Process :=
  ((tcpSocketReset p obj tcp).1.sys (.socket obj socket)).setTcp obj (tcp.asked socket)

/-- What `connect` leaves, from that point on, by how it ends. -/
structure ConnectLeaves (p : Process) (obj : ObjId) (tcp : TCPSocket) (last : ConnectEnd)
    (timeout : ℤ) (mem : Bool) (q : Process × Native) : Prop where
  objs : q.1.objs = Function.update p.objs obj
    (.live (.tcpSocket (some { tcp with state := last.state tcp.state })))
  registry : q.1.registry = if last = .waiting ∧ mem = true then
    p.registry.insert tcp.fd (connectEvent obj timeout) else p.registry
  opened : ∀ n, openedBy q.1.log n = openedBy p.log n
  confirmed : last = .completed → confirmed q.1.log tcp.fd = true
  ok : q.2.isOk = true ↔ last = .completed ∨ last = .waiting ∧ mem = true

section Connect

variable {obj : ObjId} {p : Process} {tcp : TCPSocket} {ip : UInt32} {port : ℕ} {timeout : ℤ}
  {r : ConnectReplies} {argv : List JSVal}

/-- The existing connection is shut and its descriptor forgotten. -/
theorem tcpSocketReset_acts (h : Owned p) (ht : p.tcp? obj = some tcp) :
    Acts obj p (tcpSocketReset p obj tcp).1 := by
  have hfd := Process.fdOf_of_tcp? ht
  unfold tcpSocketReset
  split_ifs
  · refine (ReflTransGen.single (.use (c := .shutdown obj tcp.fd) rfl rfl rfl ?_)).tail
      (.close (p := p.sys (.shutdown obj tcp.fd)) hfd ?_)
    · rintro n ⟨⟩
      rfl
    · exact SysCall.respects_of_open (c := .shutdown obj tcp.fd) rfl (open_of_held (h.held hfd))
  · exact .refl

variable (p obj tcp) in
/-- What the reset leaves. -/
theorem tcpSocketReset_leaves :
    (tcpSocketReset p obj tcp).2 = (if tcp.state = .connected then
      { tcp with state := .unconnected, fd := -1 } else tcp) ∧
    (tcpSocketReset p obj tcp).1.registry = p.registry ∧
    (∀ s, Function.update (tcpSocketReset p obj tcp).1.objs obj s =
      Function.update p.objs obj s) ∧
    ∀ n, openedBy (tcpSocketReset p obj tcp).1.log n =
      if tcp.state = .connected ∧ 0 ≤ tcp.fd ∧ tcp.fd = n then none else openedBy p.log n := by
  unfold tcpSocketReset
  by_cases hst : tcp.state = .connected
  · simp only [if_pos hst]
    refine ⟨trivial, rfl, fun s => Function.update_idem .., fun n => ?_⟩
    simp only [Process.setTcp_log, Process.shut, Process.sys_log, openedBy_close, hst, true_and]
    rw [openedBy_use rfl rfl]
  · simp only [if_neg hst]
    refine ⟨trivial, trivial, fun s => trivial, fun n => ?_⟩
    rw [if_neg fun hn => hst hn.1]

/-- `connect(2)` and what follows it. -/
theorem tcpSocketStart_acts (h : 0 ≤ tcp.fd → openedBy p.log tcp.fd = some obj) :
    Acts obj p (tcpSocketStart p obj tcp ip port timeout r).1 := by
  have hcall : ∀ ok, Acts obj p (p.sys (.connect obj tcp.fd ip port ok)) := fun ok =>
    .single (.use rfl rfl rfl (SysCall.respects_of_open rfl h))
  -- a positive answer is about a descriptor that is open
  have hopen : ∀ {ok}, p.answer tcp.fd ok = true → openedBy p.log tcp.fd = some obj := by
    intro ok hok
    rw [Process.answer_of_open h, Bool.and_eq_true, decide_eq_true_iff] at hok
    exact h hok.1
  unfold tcpSocketStart
  dsimp only
  split_ifs with hok hwait
  · refine (hcall _).tail (.store ⟨fun n hn => ?_, fun t htcp _ _ => ?_⟩)
    · obtain rfl := Option.some.inj hn
      right
      rw [Process.sys_log, openedBy_use rfl rfl]
      exact hopen hok
    · obtain rfl := Option.some.inj htcp
      rw [Process.sys_log, confirmed_use rfl rfl]
      simp [SysCall.fd, SysCall.confirms, hok, openedBy_nonneg (hopen hok)]
  · rw [Bool.and_eq_true] at hwait
    have hstore : Act obj
        (p.sys (.connect obj tcp.fd ip port (p.answer tcp.fd (decide (r.connect = .done)))))
        ((p.sys
          (.connect obj tcp.fd ip port (p.answer tcp.fd (decide (r.connect = .done))))).setTcp obj
            { tcp with state := .connecting }) := by
      refine .store ⟨fun n hn => ?_, fun t htcp hst _ => ?_⟩
      · obtain rfl := Option.some.inj hn
        right
        rw [Process.sys_log, openedBy_use rfl rfl]
        exact hopen hwait.2
      · obtain rfl := Option.some.inj htcp
        cases hst
    unfold Process.psAddSelect
    cases r.mem with
    | false => exact (hcall _).tail hstore
    | true =>
        refine ((hcall _).tail hstore).tail (.add ?_ rfl)
        rw [Process.setTcp_log, Process.sys_log, openedBy_use rfl rfl]
        exact hopen hwait.2
  · split <;> exact hcall _

/-- A failure that only makes calls leaves the process as it is. -/
theorem ConnectLeaves.of_failed {q : Process × Native} {mem : Bool}
    (hobj : p.objs obj = .live (.tcpSocket (some tcp))) (hq : Calls p q.1)
    (hres : q.2.isOk = false) : ConnectLeaves p obj tcp .failed timeout mem q where
  objs := by
    rw [hq.objs, ConnectEnd.state, ← hobj, Function.update_eq_self]
  registry := hq.registry
  opened := hq.opened
  confirmed hc := by cases hc
  ok := by simp [hres]

/-- Calls in between change nothing of what `connect` leaves. -/
theorem ConnectLeaves.of_calls {p' : Process} {last : ConnectEnd} {mem : Bool}
    {q : Process × Native} (hq : ConnectLeaves p' obj tcp last timeout mem q) (hp : Calls p p') :
    ConnectLeaves p obj tcp last timeout mem q where
  objs := hp.objs ▸ hq.objs
  registry := hp.registry ▸ hq.registry
  opened n := (hq.opened n).trans (hp.opened n)
  confirmed := hq.confirmed
  ok := hq.ok

/-- What `connect(2)` and what follows it leave. -/
theorem tcpSocketStart_leaves (h : 0 ≤ tcp.fd → openedBy p.log tcp.fd = some obj)
    (hfd : tcp.fd = r.socket) (hobj : p.objs obj = .live (.tcpSocket (some tcp))) :
    ConnectLeaves p obj tcp (startEnd tcp.blocking r) timeout r.mem
      (tcpSocketStart p obj tcp ip port timeout r) := by
  have hopened : ∀ ok n, openedBy (.connect obj tcp.fd ip port ok :: p.log) n = openedBy p.log n :=
    fun ok n => openedBy_use rfl rfl
  have hans : ∀ ok, p.answer tcp.fd ok = (decide (0 ≤ r.socket) && ok) := fun ok => by
    rw [Process.answer_of_open h, hfd]
  rcases Int.lt_or_le r.socket 0 with hneg | hnn
  · have hno : ∀ ok, p.answer tcp.fd ok = false := fun ok => by
      rw [hans, decide_eq_false (by omega), Bool.false_and]
    rw [startEnd, if_pos hneg]
    simp only [tcpSocketStart, hno, Bool.and_false, Bool.false_eq_true, if_false]
    split <;> exact .of_failed hobj (.sys rfl rfl) rfl
  · have hyes : ∀ ok, p.answer tcp.fd ok = ok := fun ok => by
      rw [hans, decide_eq_true hnn, Bool.true_and]
    rw [startEnd, if_neg (by omega)]
    cases hr : r.connect with
    | done =>
        have hq : tcpSocketStart p obj tcp ip port timeout r =
            ((p.sys (.connect obj tcp.fd ip port true)).setTcp obj { tcp with state := .connected },
              .ok .void) := by simp [tcpSocketStart, hyes, hr]
        rw [hq]
        refine ⟨rfl, rfl, hopened _, fun _ => ?_, by simp [Except.isOk, Except.toBool]⟩
        rw [Process.setTcp_log, Process.sys_log, confirmed_use rfl rfl]
        simp [SysCall.fd, SysCall.confirms, hfd, hnn]
    | inProgress =>
        cases hb : tcp.blocking with
        | true =>
            have hq : tcpSocketStart p obj tcp ip port timeout r =
                (p.sys (.connect obj tcp.fd ip port false),
                  reportError .failed (some "Bad file descriptor")) := by
              simp [tcpSocketStart, hyes, hr, hb]
            rw [hq]
            exact .of_failed hobj (.sys rfl rfl) rfl
        | false =>
            cases hm : r.mem with
            | true =>
                have hq : tcpSocketStart p obj tcp ip port timeout r =
                    ({ (p.sys (.connect obj tcp.fd ip port false)).setTcp obj
                        { tcp with state := .connecting } with
                      registry := p.registry.insert tcp.fd (connectEvent obj timeout)
                      selects := .add tcp.fd PSFDSET_WRITE obj .tcpSocketSelectCallback
                        .tcpSocketSelectErrorCallback timeout :: p.selects },
                      .ok .void) := by
                  simp [tcpSocketStart, hyes, hr, hb, hm, Process.psAddSelect, connectEvent]
                rw [hq]
                exact ⟨rfl, rfl, hopened _, fun hc => (by cases hc),
                  by simp [Except.isOk, Except.toBool]⟩
            | false =>
                have hq : tcpSocketStart p obj tcp ip port timeout r =
                    ((p.sys (.connect obj tcp.fd ip port false)).setTcp obj
                        { tcp with state := .connecting },
                      reportError .failed (some "asynchronous socket setup")) := by
                  simp [tcpSocketStart, hyes, hr, hb, hm, Process.psAddSelect]
                rw [hq]
                exact ⟨rfl, rfl, hopened _, fun hc => (by cases hc),
                  by simp [reportError, Except.isOk, Except.toBool]⟩
    | failed errmsg =>
        have hq : tcpSocketStart p obj tcp ip port timeout r =
            (p.sys (.connect obj tcp.fd ip port false), reportError .failed (some errmsg)) := by
          simp [tcpSocketStart, hyes, hr]
        rw [hq]
        exact .of_failed hobj (.sys rfl rfl) rfl

section Asked

variable (p obj tcp) (n m : ℤ)

/-- The socket has its new descriptor and is connecting, the others are as they were. -/
theorem asked_objs : (p.asked obj tcp n).objs = Function.update p.objs obj
    (.live (.tcpSocket (some (tcp.asked n)))) :=
  (tcpSocketReset_leaves obj p tcp).2.2.1 _

/-- The socket itself. -/
theorem asked_objs_self : (p.asked obj tcp n).objs obj =
    .live (.tcpSocket (some (tcp.asked n))) := by
  rw [asked_objs, Function.update_self]

/-- Nothing is registered yet. -/
theorem asked_registry : (p.asked obj tcp n).registry = p.registry :=
  (tcpSocketReset_leaves obj p tcp).2.1

/-- The table once `socket` has answered: the old descriptor is closed if there was
a connection, the new one is open. -/
theorem openedBy_asked : openedBy (p.asked obj tcp n).log m =
    if 0 ≤ n ∧ n = m then some obj
    else if tcp.state = .connected ∧ 0 ≤ tcp.fd ∧ tcp.fd = m then none
    else openedBy p.log m := by
  rw [Process.asked, Process.setTcp_log, Process.sys_log, openedBy_socket,
    (tcpSocketReset_leaves obj p tcp).2.2.2]

/-- The new descriptor is the object's, if it is valid. -/
theorem openedBy_asked_self (hn : 0 ≤ n) : openedBy (p.asked obj tcp n).log n = some obj := by
  rw [openedBy_asked, if_pos ⟨hn, rfl⟩]

end Asked

/-- The function in terms of the process and the record before `connect(2)`. -/
theorem tcpSocketConnectTo_eq : tcpSocketConnectTo p obj tcp ip port timeout r =
    if tcp.blocking then
      tcpSocketStart (p.asked obj tcp r.socket) obj (tcp.asked r.socket) ip port timeout r
    else
      let s := setNonblocking (p.asked obj tcp r.socket) obj r.socket r.getfl r.setfl
      if s.2 then tcpSocketStart s.1 obj (tcp.asked r.socket) ip port timeout r
      else (s.1, reportError .socketError none) := by
  unfold tcpSocketConnectTo Process.asked TCPSocket.asked tcpSocketReset
  by_cases hst : tcp.state = .connected
  · simp only [if_pos hst]
  · simp only [if_neg hst]

/-- What `connect` leaves once it got as far as `socket`. -/
theorem tcpSocketConnectTo_leaves :
    ConnectLeaves (p.asked obj tcp r.socket) obj (tcp.asked r.socket) (connectEnd tcp.blocking r)
      timeout r.mem (tcpSocketConnectTo p obj tcp ip port timeout r) := by
  have hobj := asked_objs_self obj p tcp r.socket
  have hopen := openedBy_asked_self obj p tcp r.socket
  rw [tcpSocketConnectTo_eq, connectEnd]
  cases hb : tcp.blocking with
  | true =>
      have hlast : (tcp.asked r.socket).blocking = true := hb
      simpa [hlast] using tcpSocketStart_leaves hopen rfl hobj
  | false =>
      have hlast : (tcp.asked r.socket).blocking = false := hb
      have hcalls := setNonblocking_calls obj (p.asked obj tcp r.socket) r.socket r.getfl r.setfl
      have hset := setNonblocking_ok r.getfl r.setfl hopen
      cases hok : (setNonblocking (p.asked obj tcp r.socket) obj r.socket r.getfl r.setfl).2 with
      | true =>
          rw [hok, eq_comm, Bool.and_eq_true] at hset
          simp only [Bool.false_eq_true, if_false, hok, if_true, hset.2, Bool.not_false,
            Bool.not_true, Bool.and_false]
          have hstart : startEnd false r = startEnd (tcp.asked r.socket).blocking r := by rw [hlast]
          rw [hstart]
          exact (tcpSocketStart_leaves (fun hn => (hcalls.opened _).trans (hopen hn)) rfl
            (hcalls.objs ▸ hobj)).of_calls hcalls
      | false =>
          have hfail : (if (!false && !(r.getfl && r.setfl)) = true then ConnectEnd.failed
              else startEnd false r) = .failed := by
            rw [hok, eq_comm, Bool.and_eq_false_iff] at hset
            rcases hset with hneg | hfl
            · have hstart : startEnd false r = .failed := if_pos (by simpa using hneg)
              rw [hstart, ite_self]
            · simp [hfl]
          rw [hfail]
          simp only [Bool.false_eq_true, if_false, hok]
          exact .of_failed hobj hcalls rfl

/-- `connect` from the existing connection on. -/
theorem tcpSocketConnectTo_acts (h : Owned p) (ht : p.tcp? obj = some tcp)
    (hfresh : (tcpSocketReset p obj tcp).1.Fresh r.socket) :
    Acts obj p (tcpSocketConnectTo p obj tcp ip port timeout r).1 := by
  have hopen := openedBy_asked_self obj p tcp r.socket
  have hasked : Acts obj p (p.asked obj tcp r.socket) := by
    refine ((tcpSocketReset_acts h ht).tail (.socket hfresh)).tail (.store ⟨?_, ?_⟩)
    · rintro n ⟨⟩
      refine hfresh.imp id fun hn => ?_
      rw [Process.sys_log, openedBy_socket, if_pos ⟨hn.1, rfl⟩]
    · rintro t ⟨⟩ hst
      unfold TCPSocket.asked at hst
      split_ifs at hst with hc
      exact absurd hst hc
  rw [tcpSocketConnectTo_eq]
  dsimp only
  refine hasked.trans ?_
  split_ifs
  · exact tcpSocketStart_acts hopen
  · refine (setNonblocking_acts _ _ hopen).trans (tcpSocketStart_acts fun hn => ?_)
    exact ((setNonblocking_calls _ _ _ _ _).opened _).trans (hopen hn)
  · exact setNonblocking_acts _ _ hopen

/-- `connect` that gets as far as `socket`. -/
theorem tcpSocketConnect_of_target (ht : p.tcp? obj = some tcp)
    (htarget : connectTarget r argv = .ok (ip, port, timeout)) :
    tcpSocketConnect p obj argv r = tcpSocketConnectTo p obj tcp ip port timeout r := by
  unfold tcpSocketConnect
  rw [ht, htarget]

/-- `connect` that does not. -/
theorem tcpSocketConnect_of_error {e : Option ErrorReport}
    (htarget : connectTarget r argv = .error e) :
    (tcpSocketConnect p obj argv r).1 = p ∧ (tcpSocketConnect p obj argv r).2.isOk = false := by
  unfold tcpSocketConnect
  rw [htarget]
  cases p.tcp? obj <;> exact ⟨rfl, rfl⟩

/-- `connect` that returns without an error got a connection or is waiting for one. -/
theorem tcpSocketConnect_ok (hok : (tcpSocketConnect p obj argv r).2.isOk = true) :
    ∃ tcp timeout, p.tcp? obj = some tcp ∧ (connectTarget r argv).isOk = true ∧
      (connectEnd tcp.blocking r = .completed ∨
        connectEnd tcp.blocking r = .waiting ∧ r.mem = true) ∧
      ConnectLeaves (p.asked obj tcp r.socket) obj (tcp.asked r.socket)
        (connectEnd tcp.blocking r) timeout r.mem (tcpSocketConnect p obj argv r) := by
  cases htarget : connectTarget r argv with
  | error e =>
      rw [(tcpSocketConnect_of_error htarget).2] at hok
      cases hok
  | ok target =>
      cases ht : p.tcp? obj with
      | none =>
          unfold tcpSocketConnect at hok
          rw [ht] at hok
          cases hok
      | some tcp =>
          obtain ⟨ip, port, timeout⟩ := target
          rw [tcpSocketConnect_of_target ht htarget] at hok ⊢
          have hleaves : ConnectLeaves (p.asked obj tcp r.socket) obj (tcp.asked r.socket)
              (connectEnd tcp.blocking r) timeout r.mem
              (tcpSocketConnectTo p obj tcp ip port timeout r) := tcpSocketConnectTo_leaves
          exact ⟨tcp, timeout, rfl, rfl, hleaves.ok.1 hok, hleaves⟩

/-- `TCPSocket_Connect`. -/
theorem tcpSocketConnect_acts (h : Owned p) (hfresh : (p.reset obj).Fresh r.socket) :
    Acts obj p (tcpSocketConnect p obj argv r).1 := by
  cases htarget : connectTarget r argv with
  | error e => rw [(tcpSocketConnect_of_error htarget).1]
  | ok target =>
      cases ht : p.tcp? obj with
      | none =>
          unfold tcpSocketConnect
          rw [ht]
      | some tcp =>
          rw [Process.reset, ht] at hfresh
          rw [tcpSocketConnect_of_target ht htarget]
          exact tcpSocketConnectTo_acts h ht hfresh

end Connect

end ProntoScript
