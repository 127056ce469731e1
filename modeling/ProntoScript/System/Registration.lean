/-
# Registrations and what they are for

A registration names a descriptor and an object; it should be for the descriptor
the object holds, for as long as both last (`OwnsRegistrations`), and every
asynchronous connection should have one (`FollowedUp`).  Neither is so in all
runs.  `connect` overwrites the descriptor of a socket, or closes it, without
removing the registration, and the finalisers close the descriptor without
removing it either; a connection that `connect(2)` completes at once is never
registered, nor is one whose registration cannot be allocated, and a failing
`connect` on a socket that was waiting leaves it waiting for nothing.

Both results name the steps that go wrong, and say that the runs without such a
step are exactly the runs whose states all have the property.  The first is about the
registry as the map keyed by descriptor.  The second is about the list, where an event
also gets lost when `ps_RemoveSelect` releases one that is not the first
(`ListWorld.asynchronous_followed_up`).
-/

import ProntoScript.System.Effect
import ProntoScript.System.ListWorld

namespace ProntoScript

open Transition (Run Guarded Keeping)

section

variable {A o : ObjId} {p p' : Process} {fd n : ℤ} {ev : PSSelectEvent}

/-- **Every registration of the object is for the descriptor it holds**, the object is
not finalised, and the descriptor is open. -/
def OwnsRegistrations (p : Process) (o : ObjId) : Prop :=
  ∀ fd ev, p.registry.lookup fd = some ev → ev.obj = o →
    p.isLive o = true ∧ p.fdOf o = some fd ∧ (openedBy p.log fd).isSome = true

namespace OwnsRegistrations

/-- All registrations of the object are at one number, which it holds. -/
theorem of_held (hheld : p'.fdOf A = some fd) (hopen : openedBy p'.log fd = some A)
    (hreg : ∀ n ev, p'.registry.lookup n = some ev → ev.obj = A → n = fd) :
    OwnsRegistrations p' A := by
  intro n ev hlook hobj
  obtain rfl := hreg n ev hlook hobj
  exact ⟨Process.isLive_of_fdOf hheld, hheld, by rw [hopen]; rfl⟩

/-- The object has no registrations. -/
theorem of_none (hreg : ∀ n ev, p'.registry.lookup n = some ev → ev.obj ≠ A) :
    OwnsRegistrations p' A :=
  fun n ev hlook hobj => absurd hobj (hreg n ev hlook)

variable (hall : ∀ o, OwnsRegistrations p o)

include hall in
/-- The registration at the descriptor of an object is its own. -/
theorem obj_eq (h : Owned p) (hA : p.fdOf A = some fd) (hlook : p.registry.lookup fd = some ev) :
    ev.obj = A := by
  have hnn := h.keys fd ev hlook
  obtain ⟨-, hev, -⟩ := hall ev.obj fd ev hlook rfl
  exact h.obj_unique hev hA (by omega)

include hall in
/-- Removing the registration of its descriptor leaves an object without any. -/
theorem of_erase (hA : p.fdOf A = some fd) (hreg : p'.registry = p.registry.erase fd) :
    OwnsRegistrations p' A := by
  refine .of_none fun n ev hlook hobj => ?_
  rw [hreg] at hlook
  by_cases hn : n = fd
  · rw [hn, AList.lookup_erase] at hlook
    cases hlook
  · rw [AList.lookup_erase_ne hn] at hlook
    obtain ⟨-, hfd, -⟩ := hall A n ev hlook hobj
    exact hn (Option.some.inj (hfd.symm.trans hA))

include hall in
/-- A registration of the descriptor it holds replaces the one it may have had. -/
theorem of_insert (hA : p.fdOf A = some fd) (hA' : p'.fdOf A = some fd)
    (hopen : openedBy p'.log fd = some A) (hreg : p'.registry = p.registry.insert fd ev) :
    OwnsRegistrations p' A := by
  refine .of_held hA' hopen fun n ev' hlook hobj => ?_
  rw [hreg] at hlook
  by_contra hn
  rw [AList.lookup_insert_ne hn] at hlook
  obtain ⟨-, hfd, -⟩ := hall A n ev' hlook hobj
  exact hn (Option.some.inj (hfd.symm.trans hA))

include hall in
/-- Nothing changes that matters. -/
theorem of_same (hfd : p'.fdOf A = p.fdOf A) (hopened : ∀ n, openedBy p'.log n = openedBy p.log n)
    (hreg : p'.registry = p.registry) : OwnsRegistrations p' A := by
  intro n ev hlook hobj
  rw [hreg] at hlook
  obtain ⟨-, hheld, hopen⟩ := hall A n ev hlook hobj
  rw [← hfd] at hheld
  exact ⟨Process.isLive_of_fdOf hheld, hheld, by rwa [hopened]⟩

include hall in
/-- An object that is not live has no registrations. -/
theorem ne_of_not_live (hA : p.isLive A = false) (hlook : p.registry.lookup n = some ev) :
    ev.obj ≠ A := by
  intro hobj
  obtain ⟨hlive, -, -⟩ := hall A n ev hlook hobj
  exact absurd (hA.symm.trans hlive) (by decide)

end OwnsRegistrations

end

namespace World

/-- The registrations of an object are its own affair. -/
theorem ownsRegistrations_local : Local OwnsRegistrations where
  frame {A B p p'} h hframe hB hall := by
    intro n ev hlook hobj
    have hold := hframe.entries n ev (hobj ▸ hB) hlook
    have hnn := h.keys n ev hold
    obtain ⟨-, hheld, -⟩ := hall n ev hold hobj
    have hopen := (h.held hheld).resolve_left (by omega)
    have hheld' : p'.fdOf B = some n := by
      rw [Process.fdOf, hframe.objs B hB]
      exact hheld
    exact ⟨Process.isLive_of_fdOf hheld', hheld', by rw [(hframe.table n B hB).2 hopen]; rfl⟩
  elapse duration hall := by
    intro n ev hlook hobj
    rw [Process.elapse, Registry.lookup_updateTimeouts, Option.map_eq_some_iff] at hlook
    obtain ⟨ev', hlook', rfl⟩ := hlook
    exact hall n ev' hlook' hobj

/-- The step leaves no registration behind: `connect` does not get another descriptor
for a socket whose descriptor is registered, and no object is finalised whose
descriptor is registered. -/
def LeavesNoRegistration (w : World) : Label → Prop
  | .script (.connect o argv r) => w.AtConnect o argv r fun tcp =>
      r.socket = tcp.fd ∨ w.proc.registry.lookup tcp.fd = none
  | .finalise o => ∀ fd, w.proc.fdOf o = some fd → w.proc.registry.lookup fd = none
  | _ => True

variable {w w' : World} {l : Label} {A : ObjId} {p' : Process} {ls : List Label}

/-- A `connect` that got as far as `socket` keeps the registrations of its object in
order exactly if it leaves none behind. -/
theorem ownsRegistrations_connected {tcp : TCPSocket} {timeout : ℤ} {r : ConnectReplies}
    {q : Process × Native} (h : Owned w.proc)
    (hall : ∀ o, OwnsRegistrations w.proc o) (ht : w.proc.tcp? A = some tcp)
    (hq : ConnectLeaves (w.proc.asked A tcp r.socket) A (tcp.asked r.socket)
      (connectEnd tcp.blocking r) timeout r.mem q) :
    OwnsRegistrations q.1 A ↔ r.socket = tcp.fd ∨ w.proc.registry.lookup tcp.fd = none := by
  have hA := Process.fdOf_of_tcp? ht
  have hA' : q.1.fdOf A = some r.socket := Process.fdOf_of_tcp? hq.tcp?
  -- the registrations at other numbers are as they were
  have hother : ∀ m, m ≠ r.socket → q.1.registry.lookup m = w.proc.registry.lookup m := by
    intro m hm
    rw [hq.registry, asked_registry]
    split_ifs
    · exact AList.lookup_insert_ne hm
    · rfl
  constructor
  · intro hQ
    by_contra hno
    obtain ⟨hne, hsome⟩ := not_or.1 hno
    obtain ⟨ev, hlook⟩ := Option.ne_none_iff_exists'.1 hsome
    have hobj := OwnsRegistrations.obj_eq hall h hA hlook
    obtain ⟨-, hheld, -⟩ := hQ tcp.fd ev ((hother _ (Ne.symm hne)).trans hlook) hobj
    exact hne (Option.some.inj (hA'.symm.trans hheld))
  · intro hno
    have hnone : ∀ m ev, m ≠ r.socket → q.1.registry.lookup m = some ev → ev.obj ≠ A := by
      intro m ev hm hlook hobj
      rw [hother m hm] at hlook
      obtain ⟨-, hheld, -⟩ := hall A m ev hlook hobj
      obtain rfl := Option.some.inj (hA.symm.trans hheld)
      rcases hno with heq | hnone
      · exact hm heq.symm
      · rw [hnone] at hlook
        cases hlook
    rcases Int.lt_or_le r.socket 0 with hneg | hnn
    · -- no descriptor: nothing was registered
      have hreg : q.1.registry = w.proc.registry := by
        rw [hq.registry, asked_registry, connectEnd_of_neg hneg, if_neg (by simp)]
      refine .of_none fun m ev hlook => hnone m ev ?_ hlook
      rintro rfl
      have := h.keys _ ev (hreg ▸ hlook)
      omega
    · refine .of_held hA' ?_ fun m ev hlook hobj => ?_
      · rw [hq.opened]
        exact openedBy_asked_self A w.proc tcp r.socket hnn
      · by_contra hm
        exact hnone m ev hm hlook hobj

/-- A select callback keeps the registrations of its socket in order. -/
theorem ownsRegistrations_callback {tcp : TCPSocket} {r : TcpCallbackReplies}
    {q : Process × CallbackExit} (h : Owned w.proc) (hall : ∀ o, OwnsRegistrations w.proc o)
    (ht : w.proc.tcp? A = some tcp) (hq : CallbackStep w.proc A tcp r q) :
    OwnsRegistrations q.1 A := by
  have hA := Process.fdOf_of_tcp? ht
  have huse : ∀ {c : SysCall}, c.opens = false → c.closes = false →
      ∀ n, openedBy (w.proc.sys c).log n = openedBy w.proc.log n := by
    intro c ho hc n
    exact openedBy_use ho hc
  cases hq with
  | blocking => exact .of_erase hall hA rfl
  | unconnected => exact hall A
  | connected _ _ hfd =>
      have hopen := (h.held hA).resolve_left hfd
      have hset : ((w.proc.sys (.getpeername A tcp.fd true)).setTcp A
          { tcp with state := .connected }).fdOf A = some tcp.fd := by
        rw [Process.fdOf, Process.setTcp_objs_self]
        rfl
      rw [tcpSocketRearm_fst]
      split_ifs
      · exact .of_insert hall hA hset ((huse rfl rfl _).trans hopen) rfl
      · exact .of_same hall (hset.trans hA.symm) (huse rfl rfl) rfl
  | refused =>
      rw [tcpSocketFail_fst]
      exact .of_erase hall hA rfl
  | closed => exact .of_erase hall hA rfl
  | broken =>
      rw [tcpSocketFail_fst]
      exact .of_erase hall hA rfl
  | data _ _ hfd =>
      have hopen := (h.held hA).resolve_left hfd
      rw [tcpSocketRearm_fst]
      split_ifs
      · exact .of_insert hall hA hA ((huse rfl rfl _).trans hopen) rfl
      · exact .of_same hall rfl (huse rfl rfl) rfl

/-- Every effect keeps the registrations of its actor in order exactly if it leaves none
behind. -/
theorem ownsRegistrations_effect (h : Owned w.proc) (hall : ∀ o, OwnsRegistrations w.proc o)
    (heff : Effect w A l p') : OwnsRegistrations p' A ↔ LeavesNoRegistration w l := by
  -- an object that is not made yet has none
  have hunborn : w.proc.objs A = .unborn → ∀ n ev, w.proc.registry.lookup n = some ev →
      ev.obj ≠ A := fun hnew n ev hlook =>
    OwnsRegistrations.ne_of_not_live hall (by rw [Process.isLive, hnew]) hlook
  cases heff with
  | @called c _ hc hq =>
      refine iff_of_true (.of_same hall hq.fd hq.opened hq.registry) ?_
      cases c <;> trivial
  | newTcp hnew => exact iff_of_true (.of_none (hunborn hnew)) trivial
  | newUdpRefused hnew => exact iff_of_true (.of_none (hunborn hnew)) trivial
  | @newUdp argv r _ hnew _ _ hq hopened =>
      refine iff_of_true ?_ trivial
      obtain ⟨priv, hpriv, hobjs⟩ := hq.objs
      have hreg := hq.registry
      cases hopens : udpOpens r with
      | false =>
          rw [hopens, if_neg (by decide)] at hreg
          refine .of_none fun n ev hlook => hunborn hnew n ev ?_
          rwa [hreg] at hlook
      | true =>
          rw [hopens, if_pos rfl] at hpriv hreg
          have hnn : 0 ≤ r.socket := by
            simp only [udpOpens, Bool.and_eq_true, decide_eq_true_eq] at hopens
            exact hopens.1.1.1
          have hA' : p'.fdOf A = some r.socket := by
            rw [Process.fdOf, hobjs, Function.update_self]
            exact hpriv
          refine .of_held hA' (by rw [hopened, if_pos ⟨hnn, rfl⟩]) fun n ev hlook hobj => ?_
          rw [hreg] at hlook
          by_contra hn
          rw [AList.lookup_insert_ne hn] at hlook
          exact hunborn hnew n ev hlook hobj
  | connectRefused hno => exact iff_of_true (hall A) (atConnect_refused hno)
  | connected ht htarget _ hq =>
      rw [LeavesNoRegistration, atConnect_iff ht htarget]
      exact ownsRegistrations_connected h hall ht hq
  | closeIdle => exact iff_of_true (hall A) trivial
  | closed ht =>
      exact iff_of_true (.of_erase hall (Process.fdOf_of_tcp? ht) dropTcp_registry) trivial
  | udpCloseIdle => exact iff_of_true (hall A) trivial
  | udpClosed hu =>
      exact iff_of_true (.of_erase hall (Process.fdOf_of_udp? hu) dropUdp_registry) trivial
  | dispatched _ _ _ hq => exact iff_of_true (.of_same hall hq.fd hq.opened hq.registry) trivial
  | callback _ hobj _ ht hq =>
      subst hobj
      exact iff_of_true (ownsRegistrations_callback h hall ht hq) trivial
  | returned => exact iff_of_true (hall A) trivial
  | returnedTcp _ _ _ ht =>
      exact iff_of_true (.of_erase hall (Process.fdOf_of_tcp? ht) dropTcp_registry) trivial
  | returnedUdp _ _ _ hu =>
      exact iff_of_true (.of_erase hall (Process.fdOf_of_udp? hu) dropUdp_registry) trivial
  | finalised _ hobjs hreg =>
      have hdead : p'.isLive A = false := by rw [Process.isLive, hobjs]
      constructor
      · intro hQ fd hA
        by_contra hsome
        obtain ⟨ev, hlook⟩ := Option.ne_none_iff_exists'.1 hsome
        obtain ⟨hlive, -, -⟩ := hQ fd ev (hreg ▸ hlook) (OwnsRegistrations.obj_eq hall h hA hlook)
        exact absurd (hdead.symm.trans hlive) (by decide)
      · intro hno
        refine .of_none fun n ev hlook hobj => ?_
        rw [hreg] at hlook
        obtain ⟨-, hheld, -⟩ := hall A n ev hlook hobj
        rw [hno n hheld] at hlook
        cases hlook

/-- **No registration outlives what it was made for, in the runs that leave none behind.**
In such a run, in every state, every registered event is of an object not finalised, for
the descriptor the object holds, and that is open; and these are exactly the runs where it
is so in every state.  A registration is left behind where a `connect` takes the place of
a registered descriptor with another, or a registered socket is finalised.  Source:
`TCPSocket_Connect` (lines 632-689) and `TCPSocket_Delete` (lines 166-174) of
`js/src/ext/pstcpsocket.c`, `UDPSocket_Delete` (lines 147-154) of
`js/src/ext/psudpsocket.c`. -/
theorem registrations_owned (ls : List Label) (w : World) :
    (Run (Guarded LeavesNoRegistration Step) start ls w → ∀ o, OwnsRegistrations w.proc o) ∧
    (Run (Guarded LeavesNoRegistration Step) start ls w ↔
      Run (Keeping (fun w => ∀ o, OwnsRegistrations w.proc o) Step) start ls w) := by
  have hidle : ∀ w l, actor w l = none → LeavesNoRegistration w l := by
    intro w l hl
    cases l <;> trivial
  have hlocal := run_local ownsRegistrations_local
    (fun w l A p' h _ hall heff => ownsRegistrations_effect (w := w) (l := l) (A := A) h hall heff)
    hidle (fun o fd ev hlook => by cases hlook) fun _ _ => Iff.rfl
  exact ⟨hlocal.1 ls w, hlocal.2 ls w⟩

/-- A second `connect` while the first is in progress gets descriptor 4; the event of
descriptor 3 stays registered. -/
theorem registration_of_reconnect :
    ¬ ∀ ls w, Run Step start ls w → ∀ o, OwnsRegistrations w.proc o := by
  intro hclaim
  have hrun : ∃ (w : World) (ev : PSSelectEvent), Run Step start
      [.execute, .script (.newTCPSocket 0 [] true),
        .script (.connect 0 peerArgs (connectAnswers 3 .inProgress)),
        .script (.connect 0 peerArgs (connectAnswers 4 .inProgress))] w ∧
        w.proc.registry.lookup 3 = some ev ∧ ev.obj = 0 ∧ w.proc.fdOf 0 = some 4 :=
    ⟨_, _, run_of_foldlM rfl, rfl, rfl, rfl⟩
  obtain ⟨w, ev, hrun, hlook, hobj, hfd⟩ := hrun
  obtain ⟨-, hheld, -⟩ := hclaim _ w hrun 0 3 ev hlook hobj
  cases hfd.symm.trans hheld

/-- A socket that is closed in between leaves nothing behind. -/
theorem registrations_owned_close : ∃ (w : World) (ev : PSSelectEvent),
    w.proc.registry.lookup 4 = some ev ∧ OwnsRegistrations w.proc 0 := by
  have hrun : ∃ (w : World) (ev : PSSelectEvent), Run (Guarded LeavesNoRegistration Step) start
      [.execute, .script (.newTCPSocket 0 [] true),
        .script (.connect 0 peerArgs (connectAnswers 3 .inProgress)), .script (.close 0),
        .script (.connect 0 peerArgs (connectAnswers 4 .inProgress))] w ∧
        w.proc.registry.lookup 4 = some ev := by
    refine ⟨_, _, .guarded_cons trivial rfl <| .guarded_cons trivial rfl <| .guarded_cons ?_ rfl <|
      .guarded_cons trivial rfl <| .guarded_cons ?_ rfl <| .nil _, rfl⟩
    all_goals
      rintro - tcp ht
      obtain rfl := Option.some.inj ht
      exact Or.inr rfl
  obtain ⟨w, ev, hrun, hlook⟩ := hrun
  exact ⟨w, ev, hlook, (registrations_owned _ w).1 hrun 0⟩

end World

/-! ### Asynchronous connections are followed up -/

/-- What a socket waits for in the select mechanism. -/
def TCPSocketState.interest : TCPSocketState → Option PSFDSet
  | .unconnected => none
  | .connecting => some PSFDSET_WRITE
  | .connected => some PSFDSET_READ

/-- The object has a registration for a descriptor, with an interest. -/
def Watched (p : Process) (o : ObjId) (mask : PSFDSet) (fd : ℤ) : Prop :=
  ∃ ev, p.registry.lookup fd = some ev ∧ ev.obj = o ∧ ev.wants mask = true

/-- **A non-blocking socket that is connecting or connected on an open descriptor is
registered for it**, with the interest of its state. -/
def FollowedUp (p : Process) (o : ObjId) : Prop :=
  ∀ tcp mask, p.tcp? o = some tcp → tcp.blocking = false →
    (openedBy p.log tcp.fd).isSome = true → tcp.state.interest = some mask →
      Watched p o mask tcp.fd

section

variable {A : ObjId} {p p' : Process} {tcp : TCPSocket} {fd : ℤ} {mask : PSFDSet}
  {ev : PSSelectEvent}

/-- A registration just made, for one of the two interests. -/
theorem Watched.of_insert (hreg : p'.registry = p.registry.insert fd ev) (hobj : ev.obj = A)
    (hmask : ev.fdsetmask = mask) (hne : mask ≠ 0) : Watched p' A mask fd := by
  refine ⟨ev, by rw [hreg, AList.lookup_insert], hobj, ?_⟩
  rw [PSSelectEvent.wants, hmask, Nat.and_self, bne_iff_ne]
  exact hne

/-- Whether a descriptor is watched is a matter of its own registration. -/
theorem Watched.of_eq (hreg : p'.registry.lookup fd = p.registry.lookup fd) :
    Watched p' A mask fd ↔ Watched p A mask fd := by
  unfold Watched
  rw [hreg]

namespace FollowedUp

/-- The object is no `TCPSocket`. -/
theorem of_none (ht : p.tcp? A = none) : FollowedUp p A :=
  fun _ _ ht' => by cases ht.symm.trans ht'

/-- Only one record has to be looked at. -/
theorem of_some (ht : p.tcp? A = some tcp)
    (h : ∀ mask, tcp.blocking = false → (openedBy p.log tcp.fd).isSome = true →
      tcp.state.interest = some mask → Watched p A mask tcp.fd) : FollowedUp p A := by
  intro tcp' mask ht'
  obtain rfl := Option.some.inj (ht.symm.trans ht')
  exact h mask

/-- An unconnected socket waits for nothing. -/
theorem of_unconnected (ht : p.tcp? A = some tcp) (hst : tcp.state = .unconnected) :
    FollowedUp p A := by
  refine .of_some ht fun mask _ _ hmask => ?_
  rw [hst] at hmask
  cases hmask

/-- Without descriptor there is nothing to register. -/
theorem of_closed (ht : p.tcp? A = some tcp) (hfd : tcp.fd = -1) : FollowedUp p A := by
  refine .of_some ht fun mask _ hopen => ?_
  obtain ⟨o, ho⟩ := Option.isSome_iff_exists.1 hopen
  have := openedBy_nonneg ho
  omega

/-- A quiet step leaves a socket followed up. -/
theorem of_quiet (h : FollowedUp p A) (hq : Quiet A p p') : FollowedUp p' A := by
  intro tcp' mask ht' hb hopen hmask
  obtain ⟨tcp, ht, hfd, hst, hbl⟩ := hq.tcp tcp' ht'
  rw [hq.opened, hfd] at hopen
  have hwatched := h tcp mask ht (hbl ▸ hb) hopen (hst ▸ hmask)
  rw [hfd]
  exact (Watched.of_eq (by rw [hq.registry])).2 hwatched

/-- On an open descriptor it is the state that matters. -/
theorem iff_of_open (ht : p.tcp? A = some tcp) (hb : tcp.blocking = false)
    (hopen : openedBy p.log tcp.fd = some A) :
    FollowedUp p A ↔ ∀ mask, tcp.state.interest = some mask → Watched p A mask tcp.fd := by
  have hsome : (openedBy p.log tcp.fd).isSome = true := by rw [hopen]; rfl
  exact ⟨fun h mask => h tcp mask ht hb hsome, fun h => .of_some ht fun mask _ _ => h mask⟩

end FollowedUp

end

namespace World

variable {w w' : World} {l : Label} {A : ObjId} {p' : Process} {ls : List Label}

/-- Whether a socket is followed up is its own affair. -/
theorem followedUp_local : Local FollowedUp where
  frame {A B p p'} h hframe hB hQ := by
    intro tcp mask ht hb hopen hmask
    have ht₀ : p.tcp? B = some tcp := by rwa [Process.tcp?, ← hframe.objs B hB]
    have hnn : 0 ≤ tcp.fd := by
      obtain ⟨o, ho⟩ := Option.isSome_iff_exists.1 hopen
      exact openedBy_nonneg ho
    have hopen₀ := (h.held_tcp ht₀).resolve_left (by omega)
    rw [Watched.of_eq (hframe.registry tcp.fd B hB hopen₀)]
    exact hQ tcp mask ht₀ hb (by rw [hopen₀]; rfl) hmask
  elapse duration hQ := by
    intro tcp mask ht hb hopen hmask
    obtain ⟨ev, hlook, hobj, hwants⟩ := hQ tcp mask ht hb hopen hmask
    refine ⟨ev.elapse duration, ?_, hobj, hwants⟩
    rw [Process.elapse, Registry.lookup_updateTimeouts, hlook, Option.map_some]

/-- The step forgets no asynchronous connection, given which objects have registrations.
A `connect` that gets a descriptor waits for the connection and is registered; it neither
completes at once nor fails while the socket says it is connecting; and the callback that
finds the connection established is registered for reading.  A registration of the same
object that is there already, left by an earlier connection on the same number, serves as
well. -/
def FollowsUp (watched : ObjId → PSFDSet → ℤ → Prop) (w : World) : Label → Prop
  | .script (.connect o argv r) => w.AtConnect o argv r fun tcp =>
      tcp.blocking = false → 0 ≤ r.socket →
        match connectEnd false r with
        | .completed => watched o PSFDSET_READ r.socket
        | .waiting => r.mem = true ∨ watched o PSFDSET_WRITE r.socket
        | .failed => tcp.state = .connecting → watched o PSFDSET_WRITE r.socket
  | .dispatch r => w.AtCallback fun o tcp =>
      tcp.blocking = false → tcp.state = .connecting → tcp.fd ≠ -1 → r.tcp.peername = true →
        r.tcp.mem = true ∨ watched o PSFDSET_READ tcp.fd
  | _ => True

/-- A `connect` that got as far as `socket`. -/
theorem followedUp_connected {tcp : TCPSocket} {timeout : ℤ} {r : ConnectReplies}
    {q : Process × Native} (hb : tcp.blocking = false)
    (hq : ConnectLeaves (w.proc.asked A tcp r.socket) A (tcp.asked r.socket)
      (connectEnd tcp.blocking r) timeout r.mem q) :
    FollowedUp q.1 A ↔ (0 ≤ r.socket →
      match connectEnd false r with
      | .completed => Watched w.proc A PSFDSET_READ r.socket
      | .waiting => r.mem = true ∨ Watched w.proc A PSFDSET_WRITE r.socket
      | .failed => tcp.state = .connecting → Watched w.proc A PSFDSET_WRITE r.socket) := by
  have ht := hq.tcp?
  rw [hb] at hq ht
  rcases Int.lt_or_le r.socket 0 with hneg | hnn
  · refine iff_of_true (.of_some ht fun mask _ hopen => ?_) fun hnn => by omega
    obtain ⟨o, ho⟩ := Option.isSome_iff_exists.1 hopen
    have hfd : 0 ≤ r.socket := openedBy_nonneg ho
    omega
  · have hopen : openedBy q.1.log r.socket = some A :=
      (hq.opened _).trans (openedBy_asked_self A w.proc tcp r.socket hnn)
    have hreg := hq.registry
    rw [asked_registry] at hreg
    rw [FollowedUp.iff_of_open ht hb hopen]
    simp only [hnn, true_imp_iff]
    -- what is asked of the new process is what was there, or what was just added
    have hsame : ∀ mask, q.1.registry = w.proc.registry →
        (Watched q.1 A mask r.socket ↔ Watched w.proc A mask r.socket) := fun mask hreg =>
      Watched.of_eq (by rw [hreg])
    cases hend : connectEnd false r with
    | completed =>
        rw [hend, if_neg (by simp)] at hreg
        simp only [ConnectEnd.state, TCPSocketState.interest, Option.some.injEq, forall_eq']
        exact hsame _ hreg
    | waiting =>
        simp only [ConnectEnd.state, TCPSocketState.interest, Option.some.injEq, forall_eq']
        cases hm : r.mem with
        | true =>
            rw [hend, if_pos ⟨rfl, hm⟩] at hreg
            exact iff_of_true (.of_insert hreg rfl rfl (by decide)) (Or.inl rfl)
        | false =>
            rw [hend, hm, if_neg (by simp)] at hreg
            simp only [Bool.false_eq_true, false_or]
            exact hsame _ hreg
    | failed =>
        rw [hend, if_neg (by simp)] at hreg
        simp only [ConnectEnd.state, TCPSocket.asked]
        cases hst : tcp.state with
        | unconnected => simp [TCPSocketState.interest]
        | connected => simp [TCPSocketState.interest]
        | connecting =>
            simp only [reduceCtorEq, if_false, TCPSocketState.interest, Option.some.injEq,
              forall_eq', true_imp_iff]
            exact hsame _ hreg

/-- A select callback. -/
theorem followedUp_callback {tcp : TCPSocket} {r : TcpCallbackReplies}
    {q : Process × CallbackExit} (h : Owned w.proc) (hQ : FollowedUp w.proc A)
    (ht : w.proc.tcp? A = some tcp) (hq : CallbackStep w.proc A tcp r q) :
    FollowedUp q.1 A ↔ (tcp.blocking = false → tcp.state = .connecting → tcp.fd ≠ -1 →
      r.peername = true → r.mem = true ∨ Watched w.proc A PSFDSET_READ tcp.fd) := by
  have hset : ∀ p : Process, ∀ t, (p.setTcp A t).tcp? A = some t := fun _ _ =>
    Process.setTcp_tcp?
  have hcalls : ∀ {c : SysCall}, c.opens = false → c.closes = false →
      FollowedUp (w.proc.sys c) A := fun ho hc => hQ.of_quiet (Calls.sys ho hc).quiet
  cases hq with
  | blocking hb =>
      have hb' : ¬ tcp.blocking = false := by rw [hb]; decide
      exact iff_of_true (.of_some ht fun mask hb => absurd hb hb') fun hb => absurd hb hb'
  | unconnected _ hst =>
      refine iff_of_true (.of_unconnected ht hst) fun _ hst' => ?_
      cases hst.symm.trans hst'
  | connected hb hst hfd hpeer =>
      have hopen : openedBy (SysCall.getpeername A tcp.fd true :: w.proc.log) tcp.fd = some A :=
        (openedBy_use rfl rfl).trans ((h.held_tcp ht).resolve_left hfd)
      refine Iff.trans (b := r.mem = true ∨ Watched w.proc A PSFDSET_READ tcp.fd) ?_
        ⟨fun hX _ _ _ _ => hX, fun hX => hX hb hst hfd hpeer⟩
      have ht' := hset (w.proc.sys (.getpeername A tcp.fd true)) { tcp with state := .connected }
      rw [tcpSocketRearm_fst]
      cases hm : r.mem with
      | true =>
          refine iff_of_true (.of_some ht' fun mask _ _ hmask => ?_) (Or.inl rfl)
          obtain rfl := Option.some.inj hmask
          exact .of_insert rfl rfl rfl (by decide)
      | false =>
          simp only [Bool.false_eq_true, if_false, false_or]
          rw [FollowedUp.iff_of_open ht' hb hopen]
          simp only [TCPSocketState.interest, Option.some.injEq, forall_eq']
          exact Watched.of_eq rfl
  | refused _ hst hpeer =>
      rw [tcpSocketFail_fst]
      refine iff_of_true (.of_unconnected (hset _ _) rfl) fun _ _ hfd hpeer' => ?_
      rcases hpeer with hpeer | hpeer
      · exact absurd hpeer hfd
      · cases hpeer.symm.trans hpeer'
  | closed _ hst =>
      refine iff_of_true (.of_unconnected (hset _ _) rfl) fun _ hst' => ?_
      cases hst.symm.trans hst'
  | broken _ hst =>
      rw [tcpSocketFail_fst]
      refine iff_of_true (.of_unconnected (hset _ _) rfl) fun _ hst' => ?_
      cases hst.symm.trans hst'
  | data hb hst hfd =>
      refine iff_of_true ?_ fun _ hst' => by cases hst.symm.trans hst'
      rw [tcpSocketRearm_fst]
      split_ifs
      · refine .of_some ht fun mask _ _ hmask => ?_
        rw [hst] at hmask
        obtain rfl := Option.some.inj hmask
        exact .of_insert rfl rfl rfl (by decide)
      · exact hcalls rfl rfl

/-- Every effect keeps its actor followed up exactly if it forgets no connection. -/
theorem followedUp_effect (h : Owned w.proc) (hall : ∀ o, FollowedUp w.proc o)
    (heff : Effect w A l p') : FollowedUp p' A ↔ FollowsUp (Watched w.proc) w l := by
  have hdrop : ∀ tcp, FollowedUp (w.proc.dropTcp A tcp tcp) A := fun tcp =>
    .of_closed dropTcp_tcp? rfl
  cases heff with
  | @called c _ hc hq =>
      refine iff_of_true ((hall A).of_quiet hq) ?_
      cases c <;> trivial
  | @newTcp argv mem =>
      refine iff_of_true ?_ trivial
      intro tcp mask ht _ _ hmask
      rw [Process.tcp?, Process.setObj_objs_self] at ht
      unfold ObjState.tcp? tcpSocketNew at ht
      split_ifs at ht
      obtain rfl := Option.some.inj ht
      cases hmask
  | newUdpRefused =>
      exact iff_of_true (.of_none (Process.tcp?_of_udpSocket (Process.setObj_objs_self ..))) trivial
  | newUdp _ _ _ hq =>
      obtain ⟨priv, -, hobjs⟩ := hq.objs
      have hobj : p'.objs A = .live (.udpSocket priv) := by rw [hobjs, Function.update_self]
      exact iff_of_true (.of_none (Process.tcp?_of_udpSocket hobj)) trivial
  | connectRefused hno => exact iff_of_true (hall A) (atConnect_refused hno)
  | @connected argv r tcp timeout q ht htarget _ hq =>
      rw [FollowsUp, atConnect_iff ht htarget]
      cases hb : tcp.blocking with
      | true =>
          refine iff_of_true (.of_some hq.tcp? fun mask hb' => ?_) fun hb' => by cases hb'
          cases hb.symm.trans hb'
      | false => exact (followedUp_connected hb hq).trans ⟨fun hno _ => hno, fun hno => hno rfl⟩
  | closeIdle => exact iff_of_true (hall A) trivial
  | closed => exact iff_of_true (hdrop _) trivial
  | udpCloseIdle => exact iff_of_true (hall A) trivial
  | udpClosed => exact iff_of_true (.of_none (Process.tcp?_of_udpSocket dropUdp_objs)) trivial
  | dispatched hstack _ hcb hq =>
      refine iff_of_true ((hall A).of_quiet hq) ?_
      rw [FollowsUp]
      exact atCallback_dispatched hstack hcb
  | callback hstack hobj hcb ht hq =>
      subst hobj
      rw [FollowsUp, atCallback_iff hstack hcb ht]
      exact followedUp_callback h (hall _) ht hq
  | returned => exact iff_of_true (hall A) trivial
  | returnedTcp => exact iff_of_true (hdrop _) trivial
  | returnedUdp => exact iff_of_true (.of_none (Process.tcp?_of_udpSocket dropUdp_objs)) trivial
  | finalised _ hobjs => exact iff_of_true (.of_none (by rw [Process.tcp?, hobjs]; rfl)) trivial

/-- What a `connect` that returned without an error leaves: a socket that is connecting
or connected, on an open descriptor. -/
theorem connect_ok {argv : List JSVal} {r : ConnectReplies} {tcp : TCPSocket}
    (hs : Step w (.script (.connect A argv r)) w')
    (hok : w'.events = .connect A true :: w.events) (ht : w'.proc.tcp? A = some tcp) :
    (∃ mask, tcp.state.interest = some mask) ∧ openedBy w'.proc.log tcp.fd = some A := by
  obtain ⟨-, q, hq, rfl⟩ := step_script hs
  cases ScriptCall.exec_runs hq
  have hres : (tcpSocketConnect w.proc A argv r).2.isOk = true := by simpa using hok
  obtain ⟨tcp₀, timeout, -, -, hend, hleaves⟩ := tcpSocketConnect_ok hres
  have hnn : 0 ≤ r.socket := by
    by_contra hneg
    rw [connectEnd_of_neg (by omega)] at hend
    simp at hend
  obtain rfl := Option.some.inj (hleaves.tcp?.symm.trans ht)
  refine ⟨?_, (hleaves.opened _).trans (openedBy_asked_self A w.proc tcp₀ r.socket hnn)⟩
  rcases hend with hend | ⟨hend, -⟩ <;> rw [hend] <;> exact ⟨_, rfl⟩

/-- **A step over the map keeps every connection followed up exactly if it forgets none.** -/
theorem followedUp_step (h : Owned w.proc) (hall : ∀ o, FollowedUp w.proc o) (hs : Step w l w') :
    (∀ o, FollowedUp w'.proc o) ↔ FollowsUp (Watched w.proc) w l := by
  refine step_local (G := fun w l => FollowsUp (Watched w.proc) w l) followedUp_local
    (fun w l A p' h _ hall heff => followedUp_effect h hall heff) (fun w l hl => ?_) h hall hs
  cases l with
  | dispatch r =>
      rw [FollowsUp]
      exact atCallback_idle hl
  | _ => trivial

end World

namespace ListWorld

/-- The object has a registration for a descriptor, with an interest: an event that was not
released and that the walk from `ps_Events` meets. -/
def Watched (s : ListWorld) (o : ObjId) (mask : PSFDSet) (fd : ℤ) : Prop :=
  ∃ ev, s.heap.Has fd ev ∧ ev.obj = o ∧ ev.wants mask = true

/-- **A non-blocking socket that is connecting or connected on an open descriptor is
registered for it**, with the interest of its state. -/
def FollowedUp (s : ListWorld) (o : ObjId) : Prop :=
  ∀ tcp mask, s.world.proc.tcp? o = some tcp → tcp.blocking = false →
    (openedBy s.world.proc.log tcp.fd).isSome = true → tcp.state.interest = some mask →
      s.Watched o mask tcp.fd

/-- The step forgets no asynchronous connection. -/
def FollowsUp (s : ListWorld) (l : ListLabel) : Prop := World.FollowsUp s.Watched s.world l.label

variable {s s' : ListWorld} {l : ListLabel}

/-- The registrations on a list that represents the map are those of the map. -/
theorem watched_eq (h : s.Represents) : s.Watched = ProntoScript.Watched s.world.proc := by
  funext o mask fd
  exact propext (exists_congr fun ev => and_congr_left fun _ => h.heap.has_iff)

/-- On a list that represents the map, being followed up on the list is being so in the
map. -/
theorem followedUp_iff (h : s.Represents) (o : ObjId) :
    s.FollowedUp o ↔ ProntoScript.FollowedUp s.world.proc o := by
  unfold FollowedUp ProntoScript.FollowedUp
  rw [watched_eq h]

/-- A step that finds what it removes at the head keeps every connection followed up exactly
if it forgets none. -/
theorem followedUp_step (h : s.Represents) (hall : ∀ o, s.FollowedUp o) (hs : HeadStep s l s') :
    (∀ o, s'.FollowedUp o) ↔ s.FollowsUp l := by
  obtain ⟨h', hw⟩ := step_world h hs.1 hs.2
  rw [forall_congr' (followedUp_iff h'), FollowsUp, watched_eq h]
  exact World.followedUp_step h.owned (fun o => (followedUp_iff h o).1 (hall o)) hw

/-- **Every asynchronous connection is followed up, in the runs that forget none**
(`TCPSocket_Connect`, lines 662-688, and `TCPSocket_SelectCallback`, lines 353-373, of
`js/src/ext/pstcpsocket.c`, over `js/src/ext/psselect.c`, lines 339-404).  Let every removal
find its descriptor at the head of the list or nowhere.  Where no step forgets a connection,
in every state every non-blocking socket that is connecting or connected on an open
descriptor is registered for it, and these are exactly the runs where it is so in every
state; and every `connect` that returned without an error is registered when it returns. -/
theorem asynchronous_followed_up (ls : List ListLabel) (s : ListWorld) :
    (Run (Guarded FollowsUp HeadStep) start ls s → ∀ o, s.FollowedUp o) ∧
    (Run (Guarded FollowsUp HeadStep) start ls s ↔
      Run (Keeping (fun s => ∀ o, s.FollowedUp o) HeadStep) start ls s) ∧
    ∀ s' o argv r tcp calls, Run (Guarded FollowsUp HeadStep) start ls s →
      Guarded FollowsUp HeadStep s ⟨.script (.connect o argv r), calls⟩ s' →
      s'.world.events = .connect o true :: s.world.events → s'.world.proc.tcp? o = some tcp →
      tcp.blocking = false →
        ∃ mask, tcp.state.interest = some mask ∧ s'.Watched o mask tcp.fd := by
  have hrep : ∀ s l s', s.Represents → HeadStep s l s' → s'.Represents := fun _ _ _ h hs =>
    (step_world h hs.1 hs.2).1
  have hstep : ∀ s l s', s.Represents → (∀ o, s.FollowedUp o) → HeadStep s l s' →
      ((∀ o, s'.FollowedUp o) ↔ FollowsUp s l) := fun _ _ _ h hall hs => followedUp_step h hall hs
  have hstart : ∀ o, start.FollowedUp o := fun o tcp mask ht => by cases ht
  have hall : ∀ {ls s}, Run (Guarded FollowsUp HeadStep) start ls s → ∀ o, s.FollowedUp o :=
    fun hrun => hrun.guarded_invariant (P := fun s => ∀ o, s.FollowedUp o) hrep
      (fun s l s' h hall hg hs => (hstep s l s' h hall hs).2 hg) start_represents hstart
  refine ⟨hall, Transition.run_guarded_iff_keeping hrep hstep start_represents hstart, ?_⟩
  intro s' o argv r tcp calls hrun hs hok ht hb
  have h := hrun.of_guarded.invariant hrep start_represents
  have hw := (step_world h hs.2.1 hs.2.2).2
  obtain ⟨⟨mask, hmask⟩, hopen⟩ := World.connect_ok hw hok ht
  have hfollowed := hall (hrun.append (.single hs)) o
  exact ⟨mask, hmask, hfollowed tcp mask ht hb (by rw [hopen]; rfl) hmask⟩

/-- A connection that `connect(2)` completes at once is not registered. -/
theorem asynchronous_forgotten :
    ¬ ∀ ls s, Run Step start ls s → ∀ o, s.FollowedUp o := by
  intro hclaim
  have hrun : ∃ (s : ListWorld) (tcp : TCPSocket), Run Step start
      [⟨.execute, []⟩, ⟨.script (.newTCPSocket 0 [] true), []⟩,
        ⟨.script (.connect 0 peerArgs (connectAnswers 3 .done)), []⟩] s ∧
        s.world.proc.tcp? 0 = some tcp ∧ tcp.blocking = false ∧
        (openedBy s.world.proc.log tcp.fd).isSome = true ∧ tcp.state = .connected ∧
        s.heap.psEvents = none :=
    ⟨_, _, .cons (.quiet (by rintro _ ⟨⟩) rfl rfl) <| .cons (.quiet (by rintro _ ⟨⟩) rfl rfl) <|
      .cons (.quiet (by rintro _ ⟨⟩) rfl rfl) (.nil _), rfl, rfl, rfl, rfl, rfl⟩
  obtain ⟨s, tcp, hrun, ht, hb, hopen, hst, hnone⟩ := hrun
  obtain ⟨ev, ⟨a, ⟨-, hreach⟩, -⟩, -⟩ :=
    hclaim _ s hrun 0 tcp PSFDSET_READ ht hb hopen (by rw [hst]; rfl)
  rw [hnone] at hreach
  cases hreach

/-- A connection in progress is registered, and is when it is established. -/
theorem asynchronous_followed_up_established : ∃ (s : ListWorld) (tcp : TCPSocket),
    s.world.proc.tcp? 0 = some tcp ∧ tcp.state = .connected ∧
      s.Watched 0 PSFDSET_READ tcp.fd := by
  have hrun : ∃ (s : ListWorld) (tcp : TCPSocket), Run (Guarded FollowsUp HeadStep) start
      [⟨.execute, []⟩, ⟨.script (.newTCPSocket 0 [] true), []⟩,
        ⟨.script (.connect 0 peerArgs (connectAnswers 3 .inProgress)), [watchesConnect]⟩,
        ⟨.interpreted true, []⟩, ⟨.handleSelect ⟨.ready [] [3] [], ⟨0, 0⟩, ⟨0, 0⟩⟩, []⟩,
        ⟨.dispatch ⟨⟨true, .ready, "", true, true⟩, []⟩, [watchesData]⟩] s ∧
        s.world.proc.tcp? 0 = some tcp ∧ tcp.blocking = false ∧
        (openedBy s.world.proc.log tcp.fd).isSome = true ∧ tcp.state = .connected := by
    refine ⟨_, _, .cons ⟨trivial, trivial, .quiet (by rintro _ ⟨⟩) rfl rfl⟩ <|
      .cons ⟨trivial, trivial, .quiet (by rintro _ ⟨⟩) rfl rfl⟩ <|
      .cons ⟨fun _ tcp _ _ _ => Or.inl rfl, hitsHead_single ?_,
        .single (by rintro _ ⟨⟩) rfl _ rfl rfl rfl 1 rfl⟩ <|
      .cons ⟨trivial, trivial, .quiet (by rintro _ ⟨⟩) rfl rfl⟩ <|
      .cons ⟨trivial, trivial, .pass rfl rfl 1 rfl⟩ <|
      .cons ⟨fun _ _ _ _ _ _ _ _ _ _ _ => Or.inl rfl, hitsHead_single ?_,
        .single (by rintro _ ⟨⟩) rfl _ rfl rfl rfl 2 rfl⟩ (.nil _), rfl, rfl, rfl, rfl⟩
    · rintro a ⟨⟩
    · rintro a (_ | ⟨⟨⟩⟩) -
      rfl
  obtain ⟨s, tcp, hrun, ht, hb, hopen, hst⟩ := hrun
  exact ⟨s, tcp, ht, hst, (asynchronous_followed_up _ s).1 hrun 0 tcp PSFDSET_READ ht hb hopen
    (by rw [hst]; rfl)⟩

end ListWorld
end ProntoScript
