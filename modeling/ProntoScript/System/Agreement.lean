/-
# State, descriptor and table

A socket keeps one descriptor and says in what state it is; the two should agree
(`Agrees`), and the descriptor should be the only one the socket has open
(`HoldsAll`).  `close` forgets the descriptor and keeps the state, a failure in
the select callback keeps the descriptor and forgets the state, and `connect`
forgets a descriptor that was still open, unless the socket was connected; the
constructor of `UDPSocket` attaches its descriptor in the last step only, and
drops it when an earlier one fails.

Both results name the steps that go wrong, and say that the runs without such a
step are exactly the runs whose states all have the property.
-/

import ProntoScript.System.Effect

namespace ProntoScript

open Transition (Run Guarded Keeping)

section

variable {A : ObjId} {p p' : Process} {tcp : TCPSocket}

/-- **State and descriptor agree**: a socket is unconnected if and only if it has no
descriptor, and connected only on one that it has open and that the kernel has
confirmed. -/
def Agrees (p : Process) (o : ObjId) : Prop :=
  ∀ tcp, p.tcp? o = some tcp → (tcp.state = .unconnected ↔ tcp.fd = -1) ∧
    (tcp.state = .connected → openedBy p.log tcp.fd = some o ∧ confirmed p.log tcp.fd = true)

namespace Agrees

/-- The object is no `TCPSocket`. -/
theorem of_none (ht : p.tcp? A = none) : Agrees p A :=
  fun _ ht' => by cases ht.symm.trans ht'

/-- In an owned process only the first half has to be looked at. -/
theorem iff_of_some (h : Owned p) (ht : p.tcp? A = some tcp) :
    Agrees p A ↔ (tcp.state = .unconnected ↔ tcp.fd = -1) := by
  refine ⟨fun hQ => (hQ tcp ht).1, fun hiff tcp' ht' => ?_⟩
  obtain rfl := Option.some.inj (ht.symm.trans ht')
  refine ⟨hiff, fun hst => h.confirmed_of_connected ht hst ?_⟩
  have hne : tcp.fd ≠ -1 := by
    intro hfd
    rw [hiff.2 hfd] at hst
    cases hst
  exact h.fd_nonneg (Process.fdOf_of_tcp? ht) hne

/-- A step that is quiet for the socket leaves it in agreement, or not, as it was. -/
theorem of_quiet (h : Agrees p A) (hq : Quiet A p p') : Agrees p' A := by
  intro tcp' ht'
  obtain ⟨tcp, ht, hfd, hst, -⟩ := hq.tcp tcp' ht'
  have hagree := h tcp ht
  rw [hfd, hst]
  refine ⟨hagree.1, fun hc => ?_⟩
  obtain ⟨hopen, hconf⟩ := hagree.2 hc
  exact ⟨(hq.opened _).trans hopen, hq.confirmed _ hconf⟩

/-- A socket that agreed does not agree any more when its descriptor is dropped. -/
theorem not_dropTcp (hA : Agrees p A) (ht : p.tcp? A = some tcp) (hfd : tcp.fd ≠ -1) :
    ¬ Agrees (p.dropTcp A tcp tcp) A := by
  intro hQ
  have hst : tcp.state = .unconnected := (hQ _ dropTcp_tcp?).1.2 rfl
  exact hfd ((hA tcp ht).1.1 hst)

end Agrees

end

namespace World

variable {w w' : World} {l : Label} {A : ObjId} {p' : Process} {ls : List Label}

/-- Whether a socket agrees is its own affair. -/
theorem agrees_local : Local Agrees where
  frame {A B p p'} h hframe hB hQ := by
    intro tcp ht
    have ht₀ : p.tcp? B = some tcp := by rwa [Process.tcp?, ← hframe.objs B hB]
    refine ⟨(hQ tcp ht₀).1, fun hst => ?_⟩
    obtain ⟨hopen, hconf⟩ := (hQ tcp ht₀).2 hst
    exact ⟨(hframe.table _ B hB).2 hopen, (hframe.confirmed _ B hB hopen).trans hconf⟩
  elapse _ hQ := hQ

/-- The step lets state and descriptor agree: no socket is closed that has a descriptor,
neither by its script nor after an error, no `connect` fails unless it leaves a
descriptor exactly where the socket was connecting, and the select callback never
finds that a connection failed. -/
def KeepsAgreement (w : World) : Label → Prop
  | .script (.connect o argv r) => w.AtConnect o argv r fun tcp =>
      connectEnd tcp.blocking r = .failed → (tcp.state = .connecting ↔ r.socket ≠ -1)
  | .script (.close o) => ∀ tcp, w.proc.tcp? o = some tcp → tcp.fd = -1
  | .dispatch r => w.AtCallback fun _ tcp => tcp.blocking = false →
      (tcp.state = .connecting → r.tcp.peername = true) ∧
        (tcp.state = .connected → r.tcp.peek ≠ .failed)
  | .returned => ∀ d inv rest tcp, w.stack = .handler d inv :: rest →
      d.callback = .tcpSocketSelectErrorCallback → w.proc.tcp? d.obj = some tcp → tcp.fd = -1
  | _ => True

/-- A select callback. -/
theorem agrees_callback {tcp : TCPSocket} {r : TcpCallbackReplies} {q : Process × CallbackExit}
    (h' : Owned q.1) (hQ : Agrees w.proc A) (ht : w.proc.tcp? A = some tcp)
    (hq : CallbackStep w.proc A tcp r q) :
    Agrees q.1 A ↔ (tcp.blocking = false → (tcp.state = .connecting → r.peername = true) ∧
      (tcp.state = .connected → r.peek ≠ .failed)) := by
  have hagree := (hQ tcp ht).1
  have hset : ∀ p : Process, ∀ t, (p.setTcp A t).tcp? A = some t := fun _ _ => Process.setTcp_tcp?
  -- a failure leaves the descriptor of an unconnected socket
  have hfail : tcp.state ≠ .unconnected → ∀ p, (tcpSocketFail p A tcp r).1 = q.1 →
      ¬ Agrees q.1 A := by
    intro hst p hp hQ'
    rw [tcpSocketFail_fst] at hp
    have ht' := hset (p.psRemoveSelect tcp.fd) { tcp with state := .unconnected }
    rw [hp] at ht'
    exact hst (hagree.2 ((hQ' _ ht').1.1 rfl))
  cases hq with
  | blocking hb =>
      refine iff_of_true hQ fun hb' => ?_
      cases hb.symm.trans hb'
  | unconnected _ hst =>
      refine iff_of_true hQ fun _ => ⟨fun hst' => ?_, fun hst' => ?_⟩
      all_goals cases hst.symm.trans hst'
  | connected _ hst hfd hpeer =>
      refine iff_of_true ?_ fun _ => ⟨fun _ => hpeer, fun hst' => ?_⟩
      · have hiff := Agrees.iff_of_some h' ((tcpSocketRearm_tcp? A).trans (hset _ _))
        exact hiff.2 (iff_of_false (fun hst' => by cases hst') hfd)
      · cases hst.symm.trans hst'
  | refused hb hst hpeer =>
      have hst' : tcp.state ≠ .unconnected := by rw [hst]; decide
      refine iff_of_false (hfail hst' _ rfl) fun hok => ?_
      have hpeer' := (hok hb).1 hst
      rcases hpeer with hfd | hpeer
      · exact hst' (hagree.2 hfd)
      · cases hpeer.symm.trans hpeer'
  | closed _ hst _ hpeek =>
      refine iff_of_true ((Agrees.iff_of_some h' (hset _ _)).2 (iff_of_true rfl rfl)) fun _ => ?_
      refine ⟨fun hst' => ?_, fun _ hfail => ?_⟩
      · cases hst.symm.trans hst'
      · cases hpeek.symm.trans hfail
  | broken hb hst hpeek =>
      have hst' : tcp.state ≠ .unconnected := by rw [hst]; decide
      refine iff_of_false (hfail hst' _ rfl) fun hok => ?_
      have hpeek' := (hok hb).2 hst
      rcases hpeek with hfd | hpeek
      · exact hst' (hagree.2 hfd)
      · exact hpeek' hpeek
  | data _ hst hfd hpeek =>
      refine iff_of_true ?_ fun _ => ⟨fun hst' => ?_, fun _ hfail => ?_⟩
      · exact (Agrees.iff_of_some h' ((tcpSocketRearm_tcp? A).trans ht)).2 hagree
      · cases hst.symm.trans hst'
      · cases hpeek.symm.trans hfail

/-- A `connect` that got as far as `socket`. -/
theorem agrees_connected {tcp : TCPSocket} {timeout : ℤ} {r : ConnectReplies}
    {q : Process × Native} (h' : Owned q.1)
    (hq : ConnectLeaves (w.proc.asked A tcp r.socket) A (tcp.asked r.socket)
      (connectEnd tcp.blocking r) timeout r.mem q) :
    Agrees q.1 A ↔
      (connectEnd tcp.blocking r = .failed → (tcp.state = .connecting ↔ r.socket ≠ -1)) := by
  rw [Agrees.iff_of_some h' hq.tcp?]
  -- an end without an error has a descriptor
  have hvalid : connectEnd tcp.blocking r ≠ .failed → r.socket ≠ -1 := by
    intro hend hfd
    exact hend (connectEnd_of_neg (by omega))
  show (ConnectEnd.state (tcp.asked r.socket).state _ = .unconnected ↔ r.socket = -1) ↔ _
  cases hend : connectEnd tcp.blocking r with
  | completed =>
      have hne := hvalid (by rw [hend]; decide)
      simp [ConnectEnd.state, hne]
  | waiting =>
      have hne := hvalid (by rw [hend]; decide)
      simp [ConnectEnd.state, hne]
  | failed =>
      cases hst : tcp.state <;> simp [ConnectEnd.state, TCPSocket.asked, hst]

/-- Every effect lets its actor agree exactly if it is not one of those that go wrong. -/
theorem agrees_effect (h' : Owned p') (hall : ∀ o, Agrees w.proc o)
    (heff : Effect w A l p') : Agrees p' A ↔ KeepsAgreement w l := by
  cases heff with
  | @called c _ hc hq =>
      refine iff_of_true ((hall A).of_quiet hq) ?_
      cases c <;> trivial
  | @newTcp argv mem =>
      refine iff_of_true ?_ trivial
      intro tcp ht
      rw [Process.tcp?, Process.setObj_objs_self] at ht
      unfold ObjState.tcp? tcpSocketNew at ht
      split_ifs at ht
      obtain rfl := Option.some.inj ht
      exact ⟨iff_of_true rfl rfl, fun hst => by cases hst⟩
  | newUdpRefused =>
      exact iff_of_true (.of_none (Process.tcp?_of_udpSocket (Process.setObj_objs_self ..))) trivial
  | newUdp _ _ _ hq =>
      obtain ⟨priv, -, hobjs⟩ := hq.objs
      have hobj : p'.objs A = .live (.udpSocket priv) := by rw [hobjs, Function.update_self]
      exact iff_of_true (.of_none (Process.tcp?_of_udpSocket hobj)) trivial
  | connectRefused hno => exact iff_of_true (hall A) (atConnect_refused hno)
  | connected ht htarget _ hq =>
      rw [KeepsAgreement, atConnect_iff ht htarget]
      exact agrees_connected h' hq
  | closeIdle hidle => exact iff_of_true (hall A) hidle
  | closed ht hfd =>
      refine iff_of_false (Agrees.not_dropTcp (hall A) ht hfd) fun hok => ?_
      exact hfd (hok _ ht)
  | udpCloseIdle => exact iff_of_true (hall A) trivial
  | udpClosed => exact iff_of_true (.of_none (Process.tcp?_of_udpSocket dropUdp_objs)) trivial
  | dispatched hstack _ hcb hq =>
      refine iff_of_true ((hall A).of_quiet hq) ?_
      rw [KeepsAgreement]
      exact atCallback_dispatched hstack hcb
  | callback hstack hobj hcb ht hq =>
      subst hobj
      rw [KeepsAgreement, atCallback_iff hstack hcb ht]
      exact agrees_callback h' (hall _) ht hq
  | returned hstack hobj hidle =>
      refine iff_of_true (hall A) fun d inv rest tcp hstack' hcb ht => ?_
      obtain rfl := handler_unique hstack hstack'
      subst hobj
      exact hidle hcb tcp ht
  | returnedTcp hstack hobj hcb ht hfd =>
      refine iff_of_false (Agrees.not_dropTcp (hall A) ht hfd) fun hok => ?_
      subst hobj
      exact hfd (hok _ _ _ _ hstack hcb ht)
  | returnedUdp hstack _ hcb =>
      refine iff_of_true (.of_none (Process.tcp?_of_udpSocket dropUdp_objs)) ?_
      intro d inv rest tcp hstack' hcb' _
      obtain rfl := handler_unique hstack hstack'
      cases hcb.symm.trans hcb'
  | finalised _ hobjs => exact iff_of_true (.of_none (by rw [Process.tcp?, hobjs]; rfl)) trivial

/-- **State and descriptor agree in the runs that keep them so.**  In such a run, in every
state, every `TCPSocket` agrees, and these are exactly the runs where it is so in every
state; and a socket whose `connected` property reads true has a descriptor open whose
connection the kernel has confirmed.  `TCPSocket_Close` sets the descriptor to -1 and
leaves the state.  Source: `TCPSocket_Connect` (lines 632-689), `TCPSocket_Close`
(lines 701-718), `TCPSocket_SelectCallback` (lines 262-373) and `TCPSocket_GetProperty`
(lines 189-197) of `js/src/ext/pstcpsocket.c`. -/
theorem state_agrees (ls : List Label) (w : World) :
    (Run (Guarded KeepsAgreement Step) start ls w → ∀ o, Agrees w.proc o) ∧
    (Run (Guarded KeepsAgreement Step) start ls w ↔
      Run (Keeping (fun w => ∀ o, Agrees w.proc o) Step) start ls w) ∧
    ∀ o tcp vp, Run (Guarded KeepsAgreement Step) start ls w → w.proc.tcp? o = some tcp →
      tcpSocketGetProperty w.proc o .connected vp = .boolean true →
        openedBy w.proc.log tcp.fd = some o ∧ confirmed w.proc.log tcp.fd = true := by
  have hidle : ∀ w l, actor w l = none → KeepsAgreement w l := by
    intro w l hl
    cases l with
    | dispatch r =>
        rw [KeepsAgreement]
        exact atCallback_idle hl
    | returned =>
        intro d inv rest tcp hstack
        rw [actor, hstack] at hl
        cases hl
    | _ => trivial
  have hlocal := run_local agrees_local
    (fun w l A p' _ h' hall heff => agrees_effect (w := w) (l := l) (A := A) h' hall heff) hidle
    (fun o tcp ht => by cases ht) fun _ _ => Iff.rfl
  refine ⟨hlocal.1 ls w, hlocal.2 ls w, fun o tcp vp hrun ht hget => ?_⟩
  have hst : tcp.state = .connected := by
    simpa [tcpSocketGetProperty, ht] using hget
  exact (hlocal.1 ls w hrun o tcp ht).2 hst

/-- A socket that was connected and closed goes on saying that it is connected. -/
theorem state_disagrees :
    ¬ ∀ ls w, Run Step start ls w → ∀ o, Agrees w.proc o := by
  intro hclaim
  have hrun : ∃ (w : World) (tcp : TCPSocket), Run Step start
      [.execute, .script (.newTCPSocket 0 [] true),
        .script (.connect 0 peerArgs (connectAnswers 3 .done)), .script (.close 0)] w ∧
        w.proc.tcp? 0 = some tcp ∧ tcp.state = .connected ∧ tcp.fd = -1 :=
    ⟨_, _, run_of_foldlM rfl, rfl, rfl, rfl⟩
  obtain ⟨w, tcp, hrun, ht, hst, hfd⟩ := hrun
  have hiff := (hclaim _ w hrun 0 tcp ht).1
  rw [hst, hfd] at hiff
  cases hiff.2 rfl

/-- A socket whose peer closes the connection agrees before and after. -/
theorem state_agrees_peer_closed : ∃ (w : World) (tcp : TCPSocket),
    w.proc.tcp? 0 = some tcp ∧ tcp.state = .unconnected ∧ tcp.fd = -1 ∧ Agrees w.proc 0 := by
  have hrun : ∃ (w : World) (tcp : TCPSocket), Run (Guarded KeepsAgreement Step) start
      [.execute, .script (.newTCPSocket 0 [] true),
        .script (.connect 0 peerArgs (connectAnswers 3 .inProgress)), .interpreted true,
        .handleSelect ⟨.ready [] [3] [], ⟨0, 0⟩, ⟨0, 0⟩⟩,
        .dispatch ⟨⟨true, .ready, "", true, true⟩, []⟩, .returned, .passed,
        .handleSelect ⟨.ready [3] [] [], ⟨0, 0⟩, ⟨0, 0⟩⟩,
        .dispatch ⟨⟨true, .closed, "", true, true⟩, []⟩] w ∧
        w.proc.tcp? 0 = some tcp ∧ tcp.state = .unconnected ∧ tcp.fd = -1 := by
    refine ⟨_, _, .guarded_cons trivial rfl <| .guarded_cons trivial rfl <|
      .guarded_cons ?_ rfl <| .guarded_cons trivial rfl <|
      .guarded_cons trivial rfl <| .guarded_cons ?_ rfl <| .guarded_cons ?_ rfl <|
      .guarded_cons trivial rfl <| .guarded_cons trivial rfl <| .guarded_cons ?_ rfl <| .nil _,
      rfl, rfl, rfl⟩
    · intro _ tcp ht hend
      obtain rfl := Option.some.inj ht
      exact absurd hend (by decide)
    · exact fun _ _ _ _ _ _ _ _ => ⟨fun _ => rfl, fun _ => by decide⟩
    · rintro d inv rest tcp ⟨⟩ hcb
      cases hcb
    · exact fun _ _ _ _ _ _ _ _ => ⟨fun _ => rfl, fun _ => by decide⟩
  obtain ⟨w, tcp, hrun, ht, hst, hfd⟩ := hrun
  exact ⟨w, tcp, ht, hst, hfd, (state_agrees _ w).1 hrun 0⟩

end World

/-! ### Leaks -/

/-- **No descriptor is leaked**: every descriptor `socket` returned was closed since, or
is in the field of an object not finalised. -/
def NoLeak (p : Process) : Prop :=
  ∀ later earlier o n, p.log = later ++ .socket o n :: earlier → 0 ≤ n →
    (∃ o', SysCall.close o' n ∈ later) ∨ ∃ o', p.fdOf o' = some n

/-- The object has no descriptor open but the one in its field. -/
def HoldsAll (p : Process) (o : ObjId) : Prop :=
  ∀ n, openedBy p.log n = some o → p.fdOf o = some n

section

variable {A : ObjId} {p p' : Process} {tcp : TCPSocket} {fd : ℤ}

/-- What is open and held by nobody is what was leaked. -/
theorem noLeak_iff_holdsAll (h : Owned p) : NoLeak p ↔ ∀ o, HoldsAll p o := by
  constructor
  · intro hleak o n hopen
    obtain ⟨later, earlier, hlog, hno⟩ := socket_of_opened hopen
    have hnn := openedBy_nonneg hopen
    rcases hleak later earlier o n hlog hnn with ⟨o', hclose⟩ | ⟨o', hheld⟩
    · exact absurd hclose (hno o')
    · have hopen' := (h.held hheld).resolve_left (by omega)
      obtain rfl := Option.some.inj (hopen.symm.trans hopen')
      exact hheld
  · intro hall later earlier o n hlog hnn
    cases hopen : openedBy p.log n with
    | none =>
        rw [hlog] at hopen
        exact Or.inl (close_of_not_opened hnn hopen)
    | some o' => exact Or.inr ⟨o', hall o' n hopen⟩

/-- An object without descriptors holds all it has. -/
theorem HoldsAll.of_none (h : ∀ n, openedBy p.log n ≠ some A) : HoldsAll p A :=
  fun n hopen => absurd hopen (h n)

/-- An object whose only descriptor is closed has none. -/
theorem HoldsAll.of_closed (hA : HoldsAll p A) (hfd : p.fdOf A = some fd)
    (hopened : ∀ n, openedBy p'.log n = if fd = n then none else openedBy p.log n) :
    HoldsAll p' A := by
  refine .of_none fun n hopen => ?_
  rw [hopened] at hopen
  split_ifs at hopen with hn
  exact hn (Option.some.inj (hfd.symm.trans (hA n hopen)))

end

namespace World

variable {w w' : World} {l : Label} {A : ObjId} {p' : Process} {ls : List Label}

/-- What an object holds is its own affair. -/
theorem holdsAll_local : Local HoldsAll where
  frame {A B p p'} _ hframe hB hQ := by
    intro n hopen
    rw [Process.fdOf, hframe.objs B hB]
    exact hQ n ((hframe.table n B hB).1 hopen)
  elapse _ hQ := hQ

/-- The step leaks no descriptor: `connect` does not overwrite one, unless the socket is
connected, for then it closes it; and the constructor of `UDPSocket` does not fail
once it has one. -/
def LeaksNothing (w : World) : Label → Prop
  | .script (.connect o argv r) => w.AtConnect o argv r fun tcp =>
      tcp.state = .connected ∨ tcp.fd = -1
  | .script (.newUDPSocket _ argv r) =>
      typeOfValue (argv.headD .void) ≠ .number → 0 ≤ r.socket → udpOpens r = true
  | _ => True

/-- A `connect` that got as far as `socket`. -/
theorem holdsAll_connected {tcp : TCPSocket} {timeout : ℤ} {last : ConnectEnd}
    {r : ConnectReplies} {q : Process × Native} (h : Owned w.proc) (hQ : HoldsAll w.proc A)
    (ht : w.proc.tcp? A = some tcp) (hfresh : (tcpSocketReset w.proc A tcp).1.Fresh r.socket)
    (hq : ConnectLeaves (w.proc.asked A tcp r.socket) A (tcp.asked r.socket) last timeout r.mem q) :
    HoldsAll q.1 A ↔ tcp.state = .connected ∨ tcp.fd = -1 := by
  have hA := Process.fdOf_of_tcp? ht
  have hA' : q.1.fdOf A = some r.socket := Process.fdOf_of_tcp? hq.tcp?
  have hopened : ∀ n, openedBy q.1.log n = if 0 ≤ r.socket ∧ r.socket = n then some A
      else if tcp.state = .connected ∧ 0 ≤ tcp.fd ∧ tcp.fd = n then none
      else openedBy w.proc.log n := fun n =>
    (hq.opened n).trans (openedBy_asked A w.proc tcp r.socket n)
  constructor
  · intro hQ'
    by_contra hno
    obtain ⟨hst, hfd⟩ := not_or.1 hno
    -- the old descriptor is open still, so the new one is another
    have hopen := (h.held hA).resolve_left hfd
    have hne : ¬ (0 ≤ r.socket ∧ r.socket = tcp.fd) := by
      unfold tcpSocketReset at hfresh
      rw [if_neg hst] at hfresh
      exact hfresh.ne_of_open hopen
    have hopen' : openedBy q.1.log tcp.fd = some A := by
      rw [hopened, if_neg hne, if_neg fun hc => hst hc.1]
      exact hopen
    have hfd' := hQ' tcp.fd hopen'
    have heq : r.socket = tcp.fd := Option.some.inj (hA'.symm.trans hfd')
    exact hne ⟨by rw [heq]; exact openedBy_nonneg hopen, heq⟩
  · intro hok n hopen
    rw [hopened] at hopen
    split_ifs at hopen with hn hclosed
    · rw [hA', hn.2]
    · obtain rfl : tcp.fd = n := Option.some.inj (hA.symm.trans (hQ n hopen))
      have hnn := openedBy_nonneg hopen
      rcases hok with hst | hfd
      · exact absurd ⟨hst, hnn, rfl⟩ hclosed
      · omega

/-- A select callback. -/
theorem holdsAll_callback {tcp : TCPSocket} {r : TcpCallbackReplies} {q : Process × CallbackExit}
    (h : Owned w.proc) (hQ : HoldsAll w.proc A) (ht : w.proc.tcp? A = some tcp)
    (hq : CallbackStep w.proc A tcp r q) : HoldsAll q.1 A := by
  have hA := Process.fdOf_of_tcp? ht
  -- most branches open and close nothing and keep the descriptor
  have hsame : ∀ p : Process, p.fdOf A = some tcp.fd →
      (∀ n, openedBy p.log n = openedBy w.proc.log n) → HoldsAll p A := by
    intro p hfd hopened n hopen
    rw [hopened] at hopen
    rw [hfd, ← hA]
    exact hQ n hopen
  have huse : ∀ {c : SysCall}, c.opens = false → c.closes = false →
      ∀ n, openedBy (c :: w.proc.log) n = openedBy w.proc.log n := fun ho hc n => openedBy_use ho hc
  have hset : ∀ (p : Process) t, t.fd = tcp.fd → (p.setTcp A t).fdOf A = some tcp.fd := by
    intro p t hfd
    rw [Process.fdOf_of_tcp? Process.setTcp_tcp?, hfd]
  cases hq with
  | blocking => exact hsame _ hA fun _ => rfl
  | unconnected => exact hQ
  | connected =>
      rw [tcpSocketRearm_fst]
      split_ifs
      · exact hsame _ (hset (w.proc.sys _) _ rfl) (huse rfl rfl)
      · exact hsame _ (hset (w.proc.sys _) _ rfl) (huse rfl rfl)
  | refused =>
      rw [tcpSocketFail_fst]
      exact hsame _ (hset _ _ rfl) (huse rfl rfl)
  | closed =>
      refine hQ.of_closed hA fun n => ?_
      rw [← openedBy_drop (h.held hA)]
      simp only [Process.setTcp_log, Process.shut, Process.sys_log, Process.psRemoveSelect_log,
        openedBy_close]
      rw [openedBy_use rfl rfl, openedBy_use rfl rfl]
  | broken =>
      rw [tcpSocketFail_fst]
      exact hsame _ (hset _ _ rfl) (huse rfl rfl)
  | data =>
      rw [tcpSocketRearm_fst]
      split_ifs
      · exact hsame _ hA (huse rfl rfl)
      · exact hsame _ hA (huse rfl rfl)

/-- Every effect lets its actor hold all it has exactly if it leaks nothing. -/
theorem holdsAll_effect (h : Owned w.proc) (hall : ∀ o, HoldsAll w.proc o)
    (heff : Effect w A l p') : HoldsAll p' A ↔ LeaksNothing w l := by
  have hunborn : w.proc.objs A = .unborn → ∀ n, openedBy w.proc.log n ≠ some A := by
    intro hnew n hopen
    have hheld := hall A n hopen
    rw [Process.fdOf, hnew] at hheld
    cases hheld
  cases heff with
  | @called c _ hc hq =>
      refine iff_of_true (fun n hopen => ?_) ?_
      · rw [hq.opened] at hopen
        rw [hq.fd]
        exact hall A n hopen
      · cases c <;> trivial
  | newTcp hnew => exact iff_of_true (.of_none (hunborn hnew)) trivial
  | newUdpRefused hnew hnum =>
      exact iff_of_true (.of_none (hunborn hnew)) fun hne => absurd hnum hne
  | @newUdp argv r _ hnew hnum _ hq hopened =>
      obtain ⟨priv, hpriv, hobjs⟩ := hq.objs
      have hfd : p'.fdOf A = if udpOpens r = true then some r.socket else none := by
        rw [Process.fdOf, hobjs, Function.update_self]
        exact hpriv
      constructor
      · intro hQ _ hnn
        have hheld := hQ r.socket (by rw [hopened, if_pos ⟨hnn, rfl⟩])
        rw [hfd] at hheld
        split_ifs at hheld with hopens
        exact hopens
      · intro hok n hopen
        rw [hopened] at hopen
        split_ifs at hopen with hn
        · rw [hfd, if_pos (hok hnum hn.1), hn.2]
        · exact absurd hopen (hunborn hnew n)
  | connectRefused hno => exact iff_of_true (hall A) (atConnect_refused hno)
  | connected ht htarget hfresh hq =>
      rw [LeaksNothing, atConnect_iff ht htarget]
      exact holdsAll_connected h (hall A) ht hfresh hq
  | closeIdle => exact iff_of_true (hall A) trivial
  | closed ht =>
      have hA := Process.fdOf_of_tcp? ht
      exact iff_of_true ((hall A).of_closed hA fun _ => openedBy_dropTcp (h.held hA)) trivial
  | udpCloseIdle => exact iff_of_true (hall A) trivial
  | udpClosed hu =>
      have hA := Process.fdOf_of_udp? hu
      exact iff_of_true ((hall A).of_closed hA fun _ => openedBy_dropUdp (h.held hA)) trivial
  | dispatched _ _ _ hq =>
      refine iff_of_true (fun n hopen => ?_) trivial
      rw [hq.opened] at hopen
      rw [hq.fd]
      exact hall A n hopen
  | callback _ hobj _ ht hq =>
      subst hobj
      exact iff_of_true (holdsAll_callback h (hall _) ht hq) trivial
  | returned => exact iff_of_true (hall A) trivial
  | returnedTcp _ _ _ ht =>
      have hA := Process.fdOf_of_tcp? ht
      exact iff_of_true ((hall A).of_closed hA fun _ => openedBy_dropTcp (h.held hA)) trivial
  | returnedUdp _ _ _ hu =>
      have hA := Process.fdOf_of_udp? hu
      exact iff_of_true ((hall A).of_closed hA fun _ => openedBy_dropUdp (h.held hA)) trivial
  | finalised _ hobjs _ hopened =>
      refine iff_of_true (.of_none fun n hopen => ?_) trivial
      rw [hopened] at hopen
      split_ifs at hopen with hn
      exact hn (hall A n hopen)

/-- **No descriptor is leaked in the runs whose steps leak none.**  In such a run, in
every state, every descriptor ever handed out was closed since or is held by an object not
finalised, and these are exactly the runs where it is so in every state; and once all
objects are finalised, all descriptors are closed.  Source: `TCPSocket_Connect`
(lines 632-689), which closes the descriptor of a connected socket only, and
`UDPSocket_CT` (lines 376-443 of `js/src/ext/psudpsocket.c`), which closes none where it
fails after `socket`. -/
theorem descriptors_accounted_for (ls : List Label) (w : World) :
    (Run (Guarded LeaksNothing Step) start ls w → NoLeak w.proc) ∧
    (Run (Guarded LeaksNothing Step) start ls w ↔
      Run (Keeping (fun w => NoLeak w.proc) Step) start ls w) ∧
    (Run (Guarded LeaksNothing Step) start ls w → (∀ o, w.proc.isLive o = false) →
      ∀ later earlier o n, w.proc.log = later ++ .socket o n :: earlier → 0 ≤ n →
        ∃ o', SysCall.close o' n ∈ later) := by
  have hidle : ∀ w l, actor w l = none → LeaksNothing w l := by
    intro w l hl
    cases l <;> trivial
  have hlocal := run_local holdsAll_local
    (fun w l A p' h _ hall heff => holdsAll_effect (w := w) (l := l) (A := A) h hall heff) hidle
    (fun o n hopen => by cases hopen) fun w h => noLeak_iff_holdsAll (p := w.proc) h
  refine ⟨hlocal.1 ls w, hlocal.2 ls w, fun hrun hdead later earlier o n hlog hnn => ?_⟩
  rcases hlocal.1 ls w hrun later earlier o n hlog hnn with hclosed | ⟨o', hheld⟩
  · exact hclosed
  · have hlive := Process.isLive_of_fdOf hheld
    rw [hdead o'] at hlive
    cases hlive

/-- A `connect` on a socket that was connecting forgets the descriptor it had. -/
theorem descriptor_leaked : ¬ ∀ ls w, Run Step start ls w → NoLeak w.proc := by
  intro hclaim
  have hrun : ∃ w : World, Run Step start
      [.execute, .script (.newTCPSocket 0 [] true),
        .script (.connect 0 peerArgs (connectAnswers 3 .inProgress)),
        .script (.connect 0 peerArgs (connectAnswers 4 .inProgress)), .script (.close 0)] w ∧
        openedBy w.proc.log 3 = some 0 ∧ w.proc.fdOf 0 = some (-1) :=
    ⟨_, run_of_foldlM rfl, rfl, rfl⟩
  obtain ⟨w, hrun, hopen, hfd⟩ := hrun
  have hheld := (noLeak_iff_holdsAll (owned_of_run hrun)).1 (hclaim _ w hrun) 0 3 hopen
  cases hfd.symm.trans hheld

/-- A socket that is connected twice and finalised has closed both descriptors. -/
theorem descriptors_accounted_for_finalised : ∃ w : World,
    openedBy w.proc.log 3 = none ∧ openedBy w.proc.log 4 = none ∧ NoLeak w.proc := by
  have hrun : ∃ w : World, Run (Guarded LeaksNothing Step) start
      [.execute, .script (.newTCPSocket 0 [] true),
        .script (.connect 0 peerArgs (connectAnswers 3 .done)),
        .script (.connect 0 peerArgs (connectAnswers 4 .done)), .finalise 0] w ∧
        openedBy w.proc.log 3 = none ∧ openedBy w.proc.log 4 = none := by
    refine ⟨_, .guarded_cons trivial rfl <| .guarded_cons trivial rfl <|
      .guarded_cons ?_ rfl <| .guarded_cons ?_ rfl <| .guarded_cons trivial rfl <| .nil _,
      rfl, rfl⟩
    · intro _ tcp ht
      obtain rfl := Option.some.inj ht
      exact Or.inr rfl
    · intro _ tcp ht
      obtain rfl := Option.some.inj ht
      exact Or.inl rfl
  obtain ⟨w, hrun, h₃, h₄⟩ := hrun
  exact ⟨w, h₃, h₄, (descriptors_accounted_for _ w).1 hrun⟩

end World
end ProntoScript
