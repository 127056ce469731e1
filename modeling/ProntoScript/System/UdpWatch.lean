/-
# A `UDPSocket` stays watched

`UDPSocket_CT` (`js/src/ext/psudpsocket.c`, lines 411-442) registers the descriptor for
reading without a timeout, and `UDPSocket_Close` (lines 470-484) removes the registration
again; nothing else of the class touches the registry.  The registry is keyed by the
number of a descriptor only, so whether the registration stays depends on what the other
sockets add and remove, on what they leave behind at a number that is handed out again,
and on the passes, which write all timeouts.

For the registry a step is one of a few things to the `UDPSocket`s (`UdpChange`).  A
registration that the object makes replaces what is left at its number, an object that
is not made yet has none, and no other socket holds the number.
-/

import ProntoScript.System.Effect

namespace ProntoScript

open Transition (Run Recorded)

/-- The descriptor of a live `UDPSocket` with its private data. -/
def Process.udpFd (p : Process) (o : ObjId) : Option ℤ := (p.udp? o).map UDPSocket.fd

/-- The registrations of a `UDPSocket` are the one for the descriptor it has, for reading
and without a timeout; an object that is not made yet has none. -/
structure UdpWatched (p : Process) (o : ObjId) : Prop where
  unborn : p.objs o = .unborn → ∀ n ev, p.registry.lookup n = some ev → ev.obj ≠ o
  events : ∀ fd, p.udpFd o = some fd → ∀ n ev,
    (p.registry.lookup n = some ev ∧ ev.obj = o) ↔ n = fd ∧ fd ≠ -1 ∧ ev = udpEvent o

section

variable {p p' : Process} {A B o : ObjId} {fd : ℤ} {argv : List JSVal} {r : UdpReplies}

/-- The descriptor of a `UDPSocket` is one of an object. -/
theorem Process.fdOf_of_udpFd (h : p.udpFd o = some fd) : p.fdOf o = some fd := by
  obtain ⟨udp, hu, rfl⟩ := Option.map_eq_some_iff.1 h
  exact Process.fdOf_of_udp? hu

/-- The descriptor of a `UDPSocket` is in its data. -/
theorem Process.udpFd_of_udp? {udp : UDPSocket} (h : p.udp? o = some udp) :
    p.udpFd o = some udp.fd := by
  rw [udpFd, h]
  rfl

/-- A `TCPSocket` is no `UDPSocket`. -/
theorem Process.udpFd_of_tcp? {tcp : TCPSocket} (h : p.tcp? o = some tcp) : p.udpFd o = none := by
  rw [udpFd, udp?, objs_of_tcp? h]
  rfl

/-- Data that are written are there. -/
theorem Process.setUdp_udp? {udp : UDPSocket} : (p.setUdp o udp).udp? o = some udp := by
  rw [udp?, setUdp_objs_self]
  rfl

/-- The descriptor depends on the object only. -/
theorem Process.udpFd_of_objs (h : p'.objs o = p.objs o) : p'.udpFd o = p.udpFd o := by
  rw [udpFd, udp?, h]
  rfl

/-- From `socket` on, only a run without any failure attaches the private data. -/
theorem udpSocketOpen_isOk {udp : UDPSocket} (hnone : p.udp? o = none) :
    (udpSocketOpen p o udp r).2.isOk = ((udpSocketOpen p o udp r).1.udpFd o).isSome := by
  have hfail : ∀ p' : Process, p'.objs = p.objs → false = (p'.udpFd o).isSome := by
    intro p' hobjs
    rw [Process.udpFd_of_objs (congrFun hobjs o), Process.udpFd, hnone]
    rfl
  have hbind : (udpSocketBind (p.sys (.socket o udp.fd)) o udp r.bind).1.objs = p.objs := by
    unfold udpSocketBind
    split_ifs <;> rfl
  unfold udpSocketOpen
  dsimp only
  generalize udpSocketBind (p.sys (.socket o udp.fd)) o udp r.bind = s at hbind ⊢
  have hset := (setNonblocking_calls o s.1 udp.fd r.getfl r.setfl).objs.trans hbind
  generalize setNonblocking s.1 o udp.fd r.getfl r.setfl = t at hset ⊢
  split_ifs
  · exact hfail _ rfl
  · exact hfail _ hbind
  · exact hfail _ hset
  · unfold Process.psAddSelect
    cases r.mem with
    | false => exact hfail _ hset
    | true =>
        simp only [if_true, Process.udpFd, Process.udp?, Process.setUdp_objs_self]
        rfl

/-- The constructor succeeded if and only if the object has a descriptor. -/
theorem udpSocketCT_isOk {q : Process × Native} (hq : udpSocketCT p o argv r = some q) :
    q.2.isOk = (q.1.udpFd o).isSome := by
  have hnone : (p.setObj o (.live (.udpSocket none))).udp? o = none := by
    rw [Process.udp?, Process.setObj_objs_self]
    rfl
  unfold udpSocketCT at hq
  dsimp only at hq
  split_ifs at hq
  · obtain ⟨udp, -, rfl⟩ := Option.map_eq_some_iff.1 hq
    exact udpSocketOpen_isOk hnone
  · obtain rfl := Option.some.inj hq
    rw [Process.udpFd, hnone]
    rfl

end

namespace World

/-- The `UDPSocket` a step constructs. -/
def constructed (w : World) : Label → Option ObjId
  | .script (.newUDPSocket o argv r) =>
      if (udpSocketCT w.proc o argv r).any fun q => q.2.isOk then some o else none
  | _ => none

/-- The `UDPSocket`s constructed and not yet finalised. -/
def noteConstructed (w : World) (l : Label) (_ : World) (sockets : List ObjId) : List ObjId :=
  (constructed w l).toList ++ sockets.filter fun o => l ≠ .finalise o

/-- What a step of an object changes for the `UDPSocket`s. -/
inductive UdpChange (w : World) (l : Label) (A : ObjId) (p' : Process) : Prop
  | kept (hc : constructed w l = none) (hl : l ≠ .finalise A)
      (hborn : p'.objs A = .unborn → w.proc.objs A = .unborn)
      (hfd : p'.udpFd A = w.proc.udpFd A) (hreg : p'.registry = w.proc.registry)
  | other (hc : constructed w l = none) (hborn : p'.objs A ≠ .unborn)
      (hfd : w.proc.udpFd A = none) (hfd' : p'.udpFd A = none)
  | opened {fd : ℤ} (hc : constructed w l = some A) (hnew : w.proc.objs A = .unborn)
      (hnn : 0 ≤ fd) (hborn : p'.objs A ≠ .unborn) (hfd : p'.udpFd A = some fd)
      (hreg : p'.registry = w.proc.registry.insert fd (udpEvent A))
  | closed {fd : ℤ} (hc : constructed w l = none) (hl : l ≠ .finalise A)
      (hborn : p'.objs A ≠ .unborn) (hfd : w.proc.udpFd A = some fd)
      (hfd' : p'.udpFd A = some (-1)) (hreg : p'.registry = w.proc.registry.erase fd)
  | finalised (hl : l = .finalise A) (hobjs : p'.objs A = .finalised)

section

variable {w w' : World} {l : Label} {A : ObjId} {p' : Process}

/-- A call that only reads, writes or stores a handler keeps what kind of object it is. -/
theorem called_kept {c : ScriptCall} {q : Process × List TcpEvent} (h : Owned w.proc)
    (hc : c.isQuiet = true) (hq : c.exec w.proc = some q) :
    (q.1.objs c.obj = .unborn → w.proc.objs c.obj = .unborn) ∧
      q.1.udpFd c.obj = w.proc.udpFd c.obj := by
  have hsame : ∀ {p' : Process}, p'.objs = w.proc.objs → ∀ o,
      (p'.objs o = .unborn → w.proc.objs o = .unborn) ∧ p'.udpFd o = w.proc.udpFd o := by
    intro p' hobjs o
    exact ⟨fun hu => by rwa [← hobjs], Process.udpFd_of_objs (by rw [hobjs])⟩
  cases ScriptCall.exec_runs hq with
  | setTCPSocket obj slot vp q' _ hq' =>
      rcases tcpSocketSetProperty_acts h hq' with rfl | ⟨tcp, hd, ht, rfl, -⟩
      · exact hsame rfl _
      · refine ⟨fun hu => ?_, ?_⟩
        · cases (Process.setTcp_objs_self ..).symm.trans hu
        · exact (Process.udpFd_of_tcp? (Process.setTcp_tcp? ..)).trans
            (Process.udpFd_of_tcp? ht).symm
  | setUDPSocket obj slot vp q' _ hq' =>
      rcases udpSocketSetProperty_acts h hq' with rfl | ⟨udp, udp', hu, hfd, rfl, -⟩
      · exact hsame rfl _
      · refine ⟨fun hu => ?_, ?_⟩
        · cases (Process.setUdp_objs_self ..).symm.trans hu
        · refine Eq.trans ?_ (Process.udpFd_of_udp? hu).symm
          rw [← hfd]
          exact Process.udpFd_of_udp? Process.setUdp_udp?
  | read obj argv stray replies q' _ hq' => exact hsame (tcpSocketRead_acts h hq').calls.objs _
  | write obj argv sent _ => exact hsame (tcpSocketWrite_acts h).calls.objs _
  | udpSend obj argv r _ => exact hsame (udpSocketSend_acts h).calls.objs _
  | _ => cases hc

/-- So does the dispatch of a callback, except to a `TCPSocket` with its private data. -/
theorem dispatched_kept {d : Dispatch} {r : CallbackReplies} {q : Process × CallbackExit}
    (h : Owned w.proc) (hcb : d.callback = .tcpSocketSelectCallback → w.proc.tcp? d.obj = none)
    (hq : d.call w.proc r = some q) : q.1.objs = w.proc.objs := by
  unfold Dispatch.call at hq
  split at hq
  · rename_i htcp
    obtain rfl := Option.some.inj hq
    unfold tcpSocketSelectCallback
    rw [hcb htcp]
  · obtain rfl := Option.some.inj hq
    rfl
  · exact (udpSocketSelectCallback_acts h hq).calls.objs
  · obtain rfl := Option.some.inj hq
    rfl

/-- A select callback leaves a `TCPSocket`. -/
theorem callback_tcp? {tcp : TCPSocket} {r : TcpCallbackReplies} {q : Process × CallbackExit}
    (ht : w.proc.tcp? A = some tcp) (hq : CallbackStep w.proc A tcp r q) :
    ∃ tcp', q.1.tcp? A = some tcp' := by
  cases hq with
  | blocking => exact ⟨tcp, ht⟩
  | unconnected => exact ⟨tcp, ht⟩
  | connected =>
      rw [tcpSocketRearm_tcp?]
      exact ⟨_, Process.setTcp_tcp?⟩
  | refused =>
      rw [tcpSocketFail_fst]
      exact ⟨_, Process.setTcp_tcp?⟩
  | closed => exact ⟨_, Process.setTcp_tcp?⟩
  | broken =>
      rw [tcpSocketFail_fst]
      exact ⟨_, Process.setTcp_tcp?⟩
  | data =>
      rw [tcpSocketRearm_tcp?]
      exact ⟨tcp, ht⟩

/-- What is a `TCPSocket` before and after. -/
theorem UdpChange.of_tcp {tcp tcp' : TCPSocket} (hc : constructed w l = none)
    (ht : w.proc.tcp? A = some tcp) (ht' : p'.tcp? A = some tcp') : UdpChange w l A p' := by
  refine .other hc (fun hu => ?_) (Process.udpFd_of_tcp? ht) (Process.udpFd_of_tcp? ht')
  rw [Process.tcp?, hu] at ht'
  cases ht'

/-- A constructor that failed, or one of the other class. -/
theorem UdpChange.of_new {obj : JSObject} (hc : constructed w l = none)
    (hnew : w.proc.objs A = .unborn) (hobjs : p'.objs A = .live obj) (hfd : p'.udpFd A = none) :
    UdpChange w l A p' := by
  refine .other hc (fun hu => ?_) ?_ hfd
  · cases hobjs.symm.trans hu
  · rw [Process.udpFd, Process.udp?, hnew]
    rfl

/-- Closing a `UDPSocket` removes its registration. -/
theorem UdpChange.of_drop {udp : UDPSocket} (hc : constructed w l = none) (hl : l ≠ .finalise A)
    (hu : w.proc.udp? A = some udp) : UdpChange w l A (w.proc.dropUdp A udp) := by
  refine .closed hc hl (fun hb => ?_) (Process.udpFd_of_udp? hu) ?_ dropUdp_registry
  · cases dropUdp_objs.symm.trans hb
  · rw [Process.udpFd, Process.udp?, dropUdp_objs]
    rfl

/-- A step of the constructor constructs the object if it leaves it a descriptor. -/
theorem constructed_newUDPSocket {argv : List JSVal} {r : UdpReplies}
    (hs : Step w (.script (.newUDPSocket A argv r)) w') :
    constructed w (.script (.newUDPSocket A argv r)) =
      if (w'.proc.udpFd A).isSome then some A else none := by
  obtain ⟨-, q, hexec, rfl⟩ := step_script hs
  cases ScriptCall.exec_runs hexec with
  | newUDPSocket _ _ _ q' _ hq' =>
      rw [constructed, hq', Option.any_some, udpSocketCT_isOk hq']

/-- The constructor opens a descriptor and registers it, or the object has none. -/
theorem UdpChange.of_newUdp {argv : List JSVal} {r : UdpReplies}
    (hnew : w.proc.objs A = .unborn) (hs : Step w (.script (.newUDPSocket A argv r)) w')
    (hq : UdpLeaves w.proc A (udpOpens r) r.socket w'.proc) :
    UdpChange w (.script (.newUDPSocket A argv r)) A w'.proc := by
  obtain ⟨priv, hpriv, hobjs⟩ := hq.objs
  have hobj : w'.proc.objs A = .live (.udpSocket priv) := by rw [hobjs, Function.update_self]
  have hfd : w'.proc.udpFd A = if udpOpens r = true then some r.socket else none := by
    rw [← hpriv, Process.udpFd, Process.udp?, hobj]
    rfl
  have hreg := hq.registry
  have hc := constructed_newUDPSocket hs
  cases hopens : udpOpens r with
  | false =>
      rw [hopens, if_neg (by decide)] at hfd
      rw [hfd] at hc
      exact .of_new hc hnew hobj hfd
  | true =>
      rw [hopens, if_pos rfl] at hfd hreg
      rw [hfd] at hc
      have hnn : 0 ≤ r.socket := by
        simp only [udpOpens, Bool.and_eq_true, decide_eq_true_eq] at hopens
        exact hopens.1.1.1
      refine .opened hc hnew hnn (fun hu => ?_) hfd hreg
      cases hobj.symm.trans hu

/-- **Every step of an object is one of these things to the `UDPSocket`s.** -/
theorem step_udpChange (h : Owned w.proc) (hs : Step w l w') (hA : w.actor l = some A)
    (heff : Effect w A l w'.proc) : UdpChange w l A w'.proc := by
  have hidle : ∀ {l}, constructed w l = none → l ≠ .finalise A → UdpChange w l A w.proc :=
    fun hc hl => .kept hc hl id rfl rfl
  generalize hp : w'.proc = p' at heff
  cases heff with
  | @called c _ hc hq =>
      obtain ⟨-, q, hexec, rfl⟩ := step_script hs
      obtain rfl := hp
      obtain rfl := Option.some.inj hA
      obtain ⟨hborn, hfd⟩ := called_kept h hc hexec
      refine .kept ?_ (by simp) hborn hfd hq.registry
      cases c <;> first | rfl | cases hc
  | newTcp hnew =>
      exact .of_new rfl hnew (Process.setObj_objs_self ..) (by
        rw [Process.udpFd, Process.udp?, Process.setObj_objs_self]
        rfl)
  | newUdpRefused hnew =>
      have hnone : (w.proc.setObj A (.live (.udpSocket none))).udpFd A = none := by
        rw [Process.udpFd, Process.udp?, Process.setObj_objs_self]
        rfl
      refine .of_new ?_ hnew (Process.setObj_objs_self ..) hnone
      rw [constructed_newUDPSocket hs, hp, hnone]
      rfl
  | newUdp hnew _ _ hq =>
      subst hp
      exact .of_newUdp hnew hs hq
  | connectRefused => exact hidle rfl (by simp)
  | connected ht _ _ hq => exact .of_tcp rfl ht hq.tcp?
  | closeIdle => exact hidle rfl (by simp)
  | closed ht => exact .of_tcp rfl ht dropTcp_tcp?
  | udpCloseIdle => exact hidle rfl (by simp)
  | udpClosed hu => exact .of_drop rfl (by simp) hu
  | dispatched hstack hobj hcb hq =>
      obtain ⟨d, pending, rest, p, exit, hstack', -, hcall, rfl⟩ := step_dispatch hs
      obtain rfl := next_unique hstack hstack'
      obtain rfl := hp
      have hobjs := dispatched_kept h hcb hcall
      refine .kept rfl (by simp) (fun hu => ?_) (Process.udpFd_of_objs ?_) hq.registry
      · rwa [← hobjs]
      · exact congrFun hobjs A
  | callback hstack hobj hcb ht hq =>
      subst hobj
      obtain ⟨tcp', ht'⟩ := callback_tcp? ht hq
      exact .of_tcp rfl ht ht'
  | returned => exact hidle rfl (by simp)
  | returnedTcp _ _ _ ht => exact .of_tcp rfl ht dropTcp_tcp?
  | returnedUdp _ _ _ hu => exact .of_drop rfl (by simp) hu
  | finalised _ hobjs => exact .finalised rfl hobjs

/-! ### The registrations are kept -/

/-- The registration of a `UDPSocket` has no timeout for a pass to count down. -/
theorem udpEvent_elapse (o : ObjId) (duration : Timespec) :
    (udpEvent o).elapse duration = udpEvent o := rfl

/-- The registrations of a `UDPSocket` are its own affair. -/
theorem udpWatched_local : Local UdpWatched where
  frame {A B p p'} h hframe hB hQ := by
    have hobjs := hframe.objs B hB
    have hentries : ∀ {n ev}, p'.registry.lookup n = some ev → ev.obj = B →
        p.registry.lookup n = some ev := fun hlook hobj =>
      hframe.entries _ _ (hobj ▸ hB) hlook
    refine ⟨fun hu n ev hlook hobj => ?_, fun fd hfd n ev => ?_⟩
    · exact hQ.unborn (hobjs ▸ hu) n ev (hentries hlook hobj) hobj
    · rw [Process.udpFd_of_objs hobjs] at hfd
      rw [← hQ.events fd hfd n ev]
      refine ⟨fun ⟨hlook, hobj⟩ => ⟨hentries hlook hobj, hobj⟩, fun hev => ?_⟩
      -- the number is that of an open descriptor of this object
      obtain ⟨rfl, hne, -⟩ := (hQ.events fd hfd n ev).1 hev
      have hopen := (h.held (Process.fdOf_of_udpFd hfd)).resolve_left hne
      rw [hframe.registry n B hB hopen]
      exact hev
  elapse {B p} duration hQ := by
    refine ⟨fun hu n ev hlook => ?_, fun fd hfd n ev => ?_⟩
    · rw [Process.elapse, Registry.lookup_updateTimeouts, Option.map_eq_some_iff] at hlook
      obtain ⟨ev', hlook', rfl⟩ := hlook
      exact hQ.unborn hu n ev' hlook'
    · rw [Process.elapse, Registry.lookup_updateTimeouts, Option.map_eq_some_iff]
      constructor
      · rintro ⟨⟨ev', hlook', rfl⟩, hobj⟩
        obtain ⟨hn, hne, rfl⟩ := (hQ.events fd hfd n ev').1 ⟨hlook', hobj⟩
        exact ⟨hn, hne, udpEvent_elapse B duration⟩
      · rintro ⟨hn, hne, rfl⟩
        obtain ⟨hlook, hobj⟩ := (hQ.events fd hfd n (udpEvent B)).2 ⟨hn, hne, rfl⟩
        exact ⟨⟨_, hlook, udpEvent_elapse B duration⟩, hobj⟩

/-- What a step does to its object keeps the registrations of the object. -/
theorem UdpChange.watched (hall : ∀ o, UdpWatched w.proc o) (hch : UdpChange w l A p') :
    UdpWatched p' A := by
  cases hch with
  | kept _ _ hborn hfd hreg =>
      refine ⟨fun hu => ?_, fun fd hfd' => ?_⟩
      · rw [hreg]
        exact (hall A).unborn (hborn hu)
      · rw [hreg]
        exact (hall A).events fd (hfd ▸ hfd')
  | other _ hborn _ hfd' =>
      exact ⟨fun hu => absurd hu hborn, fun fd hfd => by cases hfd'.symm.trans hfd⟩
  | @opened fd _ hnew hnn hborn hfd hreg =>
      refine ⟨fun hu => absurd hu hborn, fun fd' hfd' n ev => ?_⟩
      obtain rfl := Option.some.inj (hfd.symm.trans hfd')
      rw [hreg]
      by_cases hn : n = fd
      · subst hn
        rw [AList.lookup_insert]
        constructor
        · rintro ⟨hev, -⟩
          exact ⟨rfl, by omega, (Option.some.inj hev).symm⟩
        · rintro ⟨-, -, rfl⟩
          exact ⟨rfl, rfl⟩
      · -- before it was made the object had no registration
        rw [AList.lookup_insert_ne hn]
        refine iff_of_false (fun hev => ?_) fun hev => hn hev.1
        exact (hall A).unborn hnew n ev hev.1 hev.2
  | @closed fd _ _ hborn hfd hfd' hreg =>
      refine ⟨fun hu => absurd hu hborn, fun fd' hfd'' n ev => ?_⟩
      obtain rfl := Option.some.inj (hfd'.symm.trans hfd'')
      rw [hreg]
      refine iff_of_false ?_ fun hev => hev.2.1 rfl
      rintro ⟨hlook, hobj⟩
      by_cases hn : n = fd
      · rw [hn, AList.lookup_erase] at hlook
        cases hlook
      · rw [AList.lookup_erase_ne hn] at hlook
        exact hn ((hall A).events fd hfd n ev |>.1 ⟨hlook, hobj⟩).1
  | finalised _ hobjs =>
      refine ⟨fun hu => ?_, fun fd hfd => ?_⟩
      · cases hobjs.symm.trans hu
      · rw [Process.udpFd, Process.udp?, hobjs] at hfd
        cases hfd

/-- **Every step keeps the registrations of all `UDPSocket`s.** -/
theorem step_udpWatched (h : Owned w.proc) (hall : ∀ o, UdpWatched w.proc o) (hs : Step w l w') :
    ∀ o, UdpWatched w'.proc o := by
  intro o
  rcases step_effect h hs with ⟨A, hA, heff⟩ | ⟨-, heq | ⟨duration, heq⟩⟩
  · by_cases ho : o = A
    · subst ho
      exact (step_udpChange h hs hA heff).watched hall
    · exact udpWatched_local.frame h (step_frame h hs hA) ho (hall o)
  · rw [heq]
    exact hall o
  · rw [heq]
    exact udpWatched_local.elapse duration (hall o)

/-! ### The sockets that were constructed -/

/-- The constructor is a call on the object it makes, a finaliser one on its object. -/
theorem actor_of_constructed {o : ObjId} (h : constructed w l = some o ∨ l = .finalise o) :
    w.actor l = some o := by
  rcases h with h | rfl
  · unfold constructed at h
    split at h
    · split_ifs at h
      rw [← Option.some.inj h]
      rfl
    · cases h
  · rfl

/-- The sockets that were constructed and not finalised are those with private data. -/
theorem step_sockets {sockets : List ObjId} (h : Owned w.proc)
    (hsockets : ∀ o, o ∈ sockets ↔ (w.proc.udpFd o).isSome = true) (hs : Step w l w') (o : ObjId) :
    o ∈ noteConstructed w l w' sockets ↔ (w'.proc.udpFd o).isSome = true := by
  have hmem : o ∈ noteConstructed w l w' sockets ↔
      constructed w l = some o ∨ (w.proc.udpFd o).isSome = true ∧ l ≠ .finalise o := by
    simp only [noteConstructed, List.mem_append, Option.mem_toList, List.mem_filter,
      hsockets, decide_not, Bool.not_eq_true', decide_eq_false_iff_not, ne_eq]
  have hother : w'.proc.objs o = w.proc.objs o → w.actor l ≠ some o →
      (o ∈ noteConstructed w l w' sockets ↔ (w'.proc.udpFd o).isSome = true) := by
    intro hobjs hA
    rw [hmem, Process.udpFd_of_objs hobjs]
    constructor
    · rintro (hc | ⟨hsome, -⟩)
      · exact absurd (actor_of_constructed (.inl hc)) hA
      · exact hsome
    · exact fun hsome => .inr ⟨hsome, fun hl => hA (actor_of_constructed (.inr hl))⟩
  rcases step_effect h hs with ⟨A, hA, heff⟩ | ⟨hA, heq⟩
  · by_cases ho : o = A
    · subst ho
      rw [hmem]
      cases step_udpChange h hs hA heff with
      | kept hc hl _ hfd _ => simp [hc, hl, hfd]
      | other hc _ hfd hfd' => simp [hc, hfd, hfd']
      | opened hc _ _ _ hfd _ => simp [hc, hfd]
      | closed hc hl _ hfd hfd' _ => simp [hc, hl, hfd, hfd']
      | finalised hl hobjs =>
          subst hl
          simp [constructed, Process.udpFd, Process.udp?, hobjs, ObjState.udp?]
    · refine hother ((step_frame h hs hA).objs o ho) fun hA' => ho ?_
      exact Option.some.inj (hA'.symm.trans hA)
  · refine hother ?_ fun hA' => by cases hA.symm.trans hA'
    rcases heq with heq | ⟨duration, heq⟩ <;> rw [heq]
    rfl

end

variable {w : World} {sockets : List ObjId} {ls : List Label}

/-- What a run keeps. -/
theorem run_udpWatched
    (hrun : Run (Recorded noteConstructed Step) (start, []) ls (w, sockets)) :
    Owned w.proc ∧ (∀ o, UdpWatched w.proc o) ∧
      ∀ o, o ∈ sockets ↔ (w.proc.udpFd o).isSome = true := by
  refine hrun.invariant (P := fun s => Owned s.1.proc ∧ (∀ o, UdpWatched s.1.proc o) ∧
    ∀ o, o ∈ s.2 ↔ (s.1.proc.udpFd o).isSome = true) ?_ ?_
  · rintro ⟨w, sockets⟩ l ⟨w', sockets'⟩ ⟨h, hall, hsockets⟩ ⟨hs, hnote⟩
    refine ⟨step_owned h hs, step_udpWatched h hall hs, ?_⟩
    rw [hnote]
    exact step_sockets h hsockets hs
  · refine ⟨.start, fun o => ⟨fun _ n ev hlook => ?_, fun fd hfd => ?_⟩, fun o => ?_⟩
    · cases hlook
    · cases hfd
    · simp [start, Process.start, Process.udpFd, Process.udp?, ObjState.udp?]

/-- **A `UDPSocket` stays watched.**  In every reachable state every `UDPSocket` that was
constructed and not finalised has a descriptor if and only if the registry holds an event
of this object for it, for reading and without a timeout, and it holds no other event of
the object; and a step that is not one of the object leaves its descriptor and its events
as they are.  Source: `UDPSocket_CT` and `UDPSocket_Close` (lines 411-484) and
`UDPSocket_SelectErrorCallback` (lines 280-301) of `js/src/ext/psudpsocket.c`, over
`ps_AddSelect` and `ps_RemoveSelect` (lines 339-404 of `js/src/ext/psselect.c`). -/
theorem udp_stays_watched
    (hrun : Run (Recorded noteConstructed Step) (start, []) ls (w, sockets)) :
    (∀ o ∈ sockets, ∃ udp, w.proc.udp? o = some udp ∧
      (udp.fd ≠ -1 ↔ ∃ ev, w.proc.registry.lookup udp.fd = some ev ∧ ev.obj = o ∧
        ev.fdsetmask = PSFDSET_READ ∧ noTimeout ev.timeout = true) ∧
      ∀ n ev, w.proc.registry.lookup n = some ev → ev.obj = o → n = udp.fd) ∧
    ∀ l w' o, o ∈ sockets → Step w l w' → w.actor l ≠ some o →
      w'.proc.udp? o = w.proc.udp? o ∧
      ∀ n ev, ev.obj = o →
        (w'.proc.registry.lookup n = some ev ↔ w.proc.registry.lookup n = some ev) := by
  obtain ⟨h, hall, hsockets⟩ := run_udpWatched hrun
  have hpriv : ∀ o ∈ sockets, ∃ udp, w.proc.udp? o = some udp := by
    intro o ho
    have hsome := (hsockets o).1 ho
    rwa [Process.udpFd, Option.isSome_map, Option.isSome_iff_exists] at hsome
  refine ⟨fun o ho => ?_, fun l w' o ho hs hA => ?_⟩
  · obtain ⟨udp, hu⟩ := hpriv o ho
    have hevents := (hall o).events udp.fd (Process.udpFd_of_udp? hu)
    refine ⟨udp, hu, ⟨fun hne => ?_, ?_⟩, fun n ev hlook hobj => ?_⟩
    · obtain ⟨hlook, hobj⟩ := (hevents udp.fd (udpEvent o)).2 ⟨rfl, hne, rfl⟩
      exact ⟨udpEvent o, hlook, hobj, rfl, rfl⟩
    · rintro ⟨ev, hlook, hobj, -, -⟩
      exact ((hevents udp.fd ev).1 ⟨hlook, hobj⟩).2.1
    · exact ((hevents n ev).1 ⟨hlook, hobj⟩).1
  · obtain ⟨udp, hu⟩ := hpriv o ho
    have hobjs : w'.proc.objs o = w.proc.objs o := by
      rcases step_effect h hs with ⟨A, hA', -⟩ | ⟨-, heq | ⟨duration, heq⟩⟩
      · refine (step_frame h hs hA').objs o fun hoA => hA ?_
        rw [hA', hoA]
      · rw [heq]
      · rw [heq]
        rfl
    have hu' : w'.proc.udp? o = some udp := by rwa [Process.udp?, hobjs]
    refine ⟨hu'.trans hu.symm, fun n ev hobj => ?_⟩
    have hevents := (hall o).events udp.fd (Process.udpFd_of_udp? hu) n ev
    have hevents' := (step_udpWatched h hall hs o).events udp.fd (Process.udpFd_of_udp? hu') n ev
    simp only [hobj, and_true] at hevents hevents'
    rw [hevents, hevents']

/-- A `TCPSocket` is finalised while it connects, and its event stays; the `UDPSocket` that
gets the number has it replaced, and keeps its own over a pass. -/
theorem udp_stays_watched_reuse : ∃ (w : World) (udp : UDPSocket),
    w.proc.udp? 1 = some udp ∧ udp.fd = 3 ∧ w.proc.registry.lookup 3 = some (udpEvent 1) := by
  have hrun : ∃ w : World, w.proc.udpFd 1 = some 3 ∧
      (∃ ev, w.proc.registry.lookup 3 = some ev ∧ ev = udpEvent 1) ∧
      Run (Recorded noteConstructed Step) (start, [])
      [.execute, .script (.newTCPSocket 0 [] true),
        .script (.connect 0 peerArgs (connectAnswers 3 .inProgress)), .finalise 0,
        .script (.newUDPSocket 1 [] ⟨true, 0, 3, true, true, true, true⟩), .interpreted true,
        .handleSelect ⟨.timedOut, ⟨0, 0⟩, ⟨7, 0⟩⟩] (w, [1]) :=
    ⟨_, rfl, ⟨_, rfl, rfl⟩, Run.of_guarded (G := fun _ _ => True) <| .recorded_cons trivial rfl <|
      .recorded_cons trivial rfl <| .recorded_cons trivial rfl <| .recorded_cons trivial rfl <|
      .recorded_cons trivial rfl <| .recorded_cons trivial rfl <| .recorded_cons trivial rfl <|
      .nil _⟩
  obtain ⟨w, hfd, ⟨ev, hlook, rfl⟩, hrun⟩ := hrun
  obtain ⟨udp, hu, -, honly⟩ := (udp_stays_watched hrun).1 1 (by simp)
  exact ⟨w, udp, hu, (honly 3 _ hlook rfl).symm, hlook⟩

end World
end ProntoScript
