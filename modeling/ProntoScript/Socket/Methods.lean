/-
# What the other functions of `TCPSocket` leave

`close`, the finaliser, `read`, `write` and the assignment of handlers, and the
select callback, whose branches `CallbackStep` lists with what each of them
leaves.
-/

import ProntoScript.Socket.Effects

namespace ProntoScript

open Relation (ReflTransGen)

section Methods

variable {obj : ObjId} {p : Process} {tcp : TCPSocket} {argv : List JSVal}

/-- The descriptor is shut and forgotten. -/
theorem Act.shut_acts {s : ObjState} (h : Owned p) (hfd : p.fdOf obj = some tcp.fd)
    (hs : ∀ n, s.fd = some n → n = -1) : Acts obj p ((p.shut obj tcp.fd).setObj obj s) :=
  (ReflTransGen.single (.use (c := .shutdown obj tcp.fd) rfl rfl rfl
    (SysCall.respects_of_open (c := .shutdown obj tcp.fd) rfl (open_of_held (h.held hfd))))).tail
      (.close (p := p.sys (.shutdown obj tcp.fd)) hfd hs)

/-- `TCPSocket_Close`. -/
theorem tcpSocketClose_acts (h : Owned p) : Acts obj p (tcpSocketClose p obj).1 := by
  unfold tcpSocketClose
  cases ht : p.tcp? obj with
  | none => exact .refl
  | some tcp =>
      have hfd := Process.fdOf_of_tcp? ht
      dsimp only
      split_ifs
      · have hremove : Act obj p (p.psRemoveSelect tcp.fd) := .remove hfd
        refine (ReflTransGen.single hremove).trans (Act.shut_acts (hremove.owned h) hfd ?_)
        rintro n ⟨⟩
        rfl
      · exact .refl

/-- `TCPSocket_DT`. -/
theorem tcpSocketDT_acts (h : Owned p) : Acts obj p (tcpSocketDT p obj) := by
  unfold tcpSocketDT
  cases ht : p.tcp? obj with
  | none => exact .single (.store (.of_closed fun n hn => by cases hn))
  | some tcp =>
      dsimp only
      split_ifs
      · exact Act.shut_acts h (Process.fdOf_of_tcp? ht) fun n hn => by cases hn
      · exact .single (.store (.of_closed fun n hn => by cases hn))

/-- It leaves the registered events alone, and calls neither of the select functions. -/
theorem tcpSocketDT_registry : (tcpSocketDT p obj).registry = p.registry := by
  unfold tcpSocketDT
  cases p.tcp? obj with
  | none => rfl
  | some tcp =>
      dsimp only
      split_ifs <;> rfl

/-- A finaliser calls neither of the select functions. -/
theorem tcpSocketDT_selects : (tcpSocketDT p obj).selects = p.selects := by
  unfold tcpSocketDT
  cases p.tcp? obj with
  | none => rfl
  | some tcp =>
      dsimp only
      split_ifs <;> rfl

/-- The data of a `TCPSocket` in state CONNECTED moves on a confirmed descriptor. -/
theorem Owned.confirmed_of_connected (h : Owned p) (ht : p.tcp? obj = some tcp)
    (hst : tcp.state = .connected) (hnn : 0 ≤ tcp.fd) :
    openedBy p.log tcp.fd = some obj ∧ ProntoScript.confirmed p.log tcp.fd = true :=
  ⟨open_of_held (h.held_tcp ht) hnn, (h.fits obj).confirmed tcp ht hst (by omega)⟩

/-- The receive loop. -/
theorem readLoop_acts {fd : ℤ} {count nread : ℕ} {data : JSString} {replies : List RecvReply}
    {q : Process × Native} (h : 0 ≤ fd → openedBy p.log fd = some obj ∧ confirmed p.log fd = true)
    (hq : readLoop p obj fd count nread data replies = some q) : ActsOnly obj p q.1 := by
  induction replies generalizing p nread data with
  | nil =>
      unfold readLoop at hq
      split_ifs at hq
      cases hq
      exact .refl obj p
  | cons r replies ih =>
      unfold readLoop at hq
      dsimp only at hq
      generalize (if p.answer fd true = true then r else RecvReply.error) = reply at hq
      have hrecv : ActsOnly obj p (p.sys (.recv obj fd (readLength count nread) false)) :=
        .use rfl rfl rfl fun hnn _ => ⟨(h hnn).1, fun _ => (h hnn).2⟩
      split at hq
      · cases hq
      · split at hq
        · cases hq
        · split at hq
          · cases hq
          · exact hrecv.trans (ih (fun hnn => ⟨(hrecv.calls.opened fd).trans (h hnn).1,
              hrecv.calls.confirmed fd (h hnn).2⟩) hq)
          · split at hq
            · cases hq
              exact hrecv
            · cases hq

/-- `TCPSocket_Read`. -/
theorem tcpSocketRead_acts {stray : ℤ} {replies : List RecvReply} {q : Process × Native}
    (h : Owned p) (hq : tcpSocketRead p obj argv stray replies = some q) :
    ActsOnly obj p q.1 := by
  unfold tcpSocketRead at hq
  cases ht : p.tcp? obj with
  | none =>
      rw [ht] at hq
      cases hq
      exact .refl obj p
  | some tcp =>
      rw [ht] at hq
      dsimp only at hq
      split at hq
      · cases hq
        exact .refl obj p
      · split_ifs at hq with hst
        · cases hq
          exact .refl obj p
        · exact readLoop_acts (h.confirmed_of_connected ht (not_not.1 hst)) hq

/-- `TCPSocket_Write`. -/
theorem tcpSocketWrite_acts {sent : ℤ} (h : Owned p) :
    ActsOnly obj p (tcpSocketWrite p obj argv sent).1 := by
  unfold tcpSocketWrite
  cases ht : p.tcp? obj with
  | none => exact .refl obj p
  | some tcp =>
      dsimp only
      split
      · exact .refl obj p
      · split_ifs with hst
        · exact .refl obj p
        all_goals
          refine .use rfl rfl rfl fun hnn _ => ?_
          have := h.confirmed_of_connected ht (not_not.1 hst) hnn
          exact ⟨this.1, fun _ => this.2⟩
      · exact .refl obj p

/-- `TCPSocket_SetProperty` stores a handler. -/
theorem tcpSocketSetProperty_acts {slot : TCPSocketTinyId} {vp : JSVal} {q : Process} (h : Owned p)
    (hq : tcpSocketSetProperty p obj slot vp = some q) :
    q = p ∨ ∃ tcp hd, p.tcp? obj = some tcp ∧ q = p.setTcp obj (tcp.setHandler vp hd) ∧
      Acts obj p q := by
  unfold tcpSocketSetProperty at hq
  split at hq
  · exact Or.inl (Option.some.inj hq).symm
  · rename_i hd
    split_ifs at hq
    · cases ht : p.tcp? obj with
      | none => rw [ht] at hq; cases hq
      | some tcp =>
          rw [ht] at hq
          cases hq
          have hfields : (tcp.setHandler vp hd).fd = tcp.fd ∧
              (tcp.setHandler vp hd).state = tcp.state := by cases hd <;> exact ⟨rfl, rfl⟩
          refine Or.inr ⟨tcp, hd, rfl, rfl, .single (.store ⟨?_, ?_⟩)⟩
          · rintro n ⟨⟩
            rw [hfields.1]
            exact h.held_tcp ht
          · rintro t ⟨⟩ hst hne
            rw [hfields.1] at hne ⊢
            rw [hfields.2] at hst
            exact (h.fits obj).confirmed tcp ht hst hne
    · exact Or.inl (Option.some.inj hq).symm

end Methods

/-! ### The select callback -/

/-- The branches of `TCPSocket_SelectCallback`, with what the outside answered in each. -/
inductive CallbackStep (p : Process) (obj : ObjId) (tcp : TCPSocket) (r : TcpCallbackReplies) :
    Process × CallbackExit → Prop
  | blocking (hb : tcp.blocking = true) :
      CallbackStep p obj tcp r (p.psRemoveSelect tcp.fd, .silent)
  | unconnected (hb : tcp.blocking = false) (hst : tcp.state = .unconnected) :
      CallbackStep p obj tcp r (p, .silent)
  | connected (hb : tcp.blocking = false) (hst : tcp.state = .connecting) (hfd : tcp.fd ≠ -1)
      (hpeer : r.peername = true) :
      CallbackStep p obj tcp r (tcpSocketRearm
        ((p.sys (.getpeername obj tcp.fd true)).setTcp obj { tcp with state := .connected }) obj
        { tcp with state := .connected } ⟨.onConnect, tcp.onConnect, []⟩ r)
  | refused (hb : tcp.blocking = false) (hst : tcp.state = .connecting)
      (hpeer : tcp.fd = -1 ∨ r.peername = false) :
      CallbackStep p obj tcp r (tcpSocketFail (p.sys (.getpeername obj tcp.fd false)) obj tcp r)
  | closed (hb : tcp.blocking = false) (hst : tcp.state = .connected) (hfd : tcp.fd ≠ -1)
      (hpeek : r.peek = .closed) :
      CallbackStep p obj tcp r
        (((((p.sys (.recv obj tcp.fd 1 true)).psRemoveSelect tcp.fd).shut obj tcp.fd).setTcp obj
          { tcp with state := .unconnected, fd := -1 }), .invoke ⟨.onClose, tcp.onClose, []⟩)
  | broken (hb : tcp.blocking = false) (hst : tcp.state = .connected)
      (hpeek : tcp.fd = -1 ∨ r.peek = .failed) :
      CallbackStep p obj tcp r (tcpSocketFail (p.sys (.recv obj tcp.fd 1 true)) obj tcp r)
  | data (hb : tcp.blocking = false) (hst : tcp.state = .connected) (hfd : tcp.fd ≠ -1)
      (hpeek : r.peek = .ready) :
      CallbackStep p obj tcp r (tcpSocketRearm (p.sys (.recv obj tcp.fd 1 true)) obj tcp
        ⟨.onData, tcp.onData, []⟩ r)

section Callback

variable {obj : ObjId} {p : Process} {tcp : TCPSocket} {r : TcpCallbackReplies} {inv : Invocation}

/-- The callback takes one of its branches. -/
theorem tcpSocketSelectCallback_step (h : Owned p) (ht : p.tcp? obj = some tcp) :
    CallbackStep p obj tcp r (tcpSocketSelectCallback p obj r) := by
  have hans : ∀ ok, p.answer tcp.fd ok = (tcp.fd != -1 && ok) := fun ok =>
    Process.answer_of_held (h.held_tcp ht)
  unfold tcpSocketSelectCallback
  rw [ht]
  dsimp only
  by_cases hb : tcp.blocking = true
  · rw [if_pos hb]
    exact .blocking hb
  · rw [if_neg hb]
    rw [Bool.not_eq_true] at hb
    split
    · rename_i hst
      exact .unconnected hb hst
    · rename_i hst
      have hpeer := hans r.peername
      cases hok : p.answer tcp.fd r.peername with
      | true =>
          rw [hok, eq_comm, Bool.and_eq_true, bne_iff_ne] at hpeer
          exact .connected hb hst hpeer.1 hpeer.2
      | false =>
          rw [hok, eq_comm, Bool.and_eq_false_iff, bne_eq_false_iff_eq] at hpeer
          exact .refused hb hst hpeer
    · rename_i hst
      by_cases hfd : tcp.fd = -1
      · have hclosed : p.answer tcp.fd true = false := by
          rw [hans, hfd]
          rfl
        rw [hclosed]
        exact .broken hb hst (Or.inl hfd)
      · have hopen : p.answer tcp.fd true = true := by simp [hans, hfd]
        rw [hopen, if_pos rfl]
        split
        · rename_i hpeek
          exact .closed hb hst hfd hpeek
        · rename_i hpeek
          exact .broken hb hst (Or.inr hpeek)
        · rename_i hpeek
          exact .data hb hst hfd hpeek

/-- The process the registration for reading leaves. -/
theorem tcpSocketRearm_fst : (tcpSocketRearm p obj tcp inv r).1 =
    if r.mem then { p with
      registry := p.registry.insert tcp.fd ⟨PSFDSET_READ, obj, .tcpSocketSelectCallback,
        .tcpSocketSelectErrorCallback, addTimeout (-1)⟩
      selects := .add tcp.fd PSFDSET_READ obj .tcpSocketSelectCallback
        .tcpSocketSelectErrorCallback (-1) :: p.selects } else p := by
  unfold tcpSocketRearm Process.psAddSelect
  cases r.mem <;> rfl

/-- The registration changes no object. -/
theorem tcpSocketRearm_tcp? (o : ObjId) : (tcpSocketRearm p obj tcp inv r).1.tcp? o = p.tcp? o := by
  rw [tcpSocketRearm_fst]
  split_ifs <;> rfl

/-- The process a failure leaves. -/
theorem tcpSocketFail_fst : (tcpSocketFail p obj tcp r).1 =
    (p.psRemoveSelect tcp.fd).setTcp obj { tcp with state := .unconnected } := by
  unfold tcpSocketFail
  cases r.str <;> rfl

/-- The registration for reading is for the socket's own descriptor. -/
theorem tcpSocketRearm_acts (hopen : openedBy p.log tcp.fd = some obj) :
    Acts obj p (tcpSocketRearm p obj tcp inv r).1 := by
  rw [tcpSocketRearm_fst]
  split_ifs
  · exact .single (.add hopen rfl)
  · exact .refl

/-- A failed connection closes the socket's own descriptor. -/
theorem tcpSocketFail_acts (h : Owned p) (ht : p.tcp? obj = some tcp) :
    Acts obj p (tcpSocketFail p obj tcp r).1 := by
  have hheld := h.held_tcp ht
  rw [tcpSocketFail_fst]
  refine (ReflTransGen.single (.remove (Process.fdOf_of_tcp? ht))).tail (.store ⟨?_, ?_⟩)
  · rintro n ⟨⟩
    exact hheld
  · rintro t ⟨⟩ hst
    cases hst

/-- `TCPSocket_SelectCallback`. -/
theorem tcpSocketSelectCallback_acts (h : Owned p) :
    Acts obj p (tcpSocketSelectCallback p obj r).1 := by
  cases ht : p.tcp? obj with
  | none =>
      unfold tcpSocketSelectCallback
      rw [ht]
  | some tcp =>
      have hfd := Process.fdOf_of_tcp? ht
      have hheld := h.held_tcp ht
      have hpeer : ∀ ok, ActsOnly obj p (p.sys (.getpeername obj tcp.fd ok)) := fun ok =>
        .use rfl rfl rfl (SysCall.respects_of_open rfl (open_of_held hheld))
      have hrecv : tcp.state = .connected → ActsOnly obj p (p.sys (.recv obj tcp.fd 1 true)) :=
        fun hst => .use rfl rfl rfl fun hnn _ =>
          have := h.confirmed_of_connected ht hst hnn
          ⟨this.1, fun _ => this.2⟩
      have hstep := tcpSocketSelectCallback_step (r := r) h ht
      generalize tcpSocketSelectCallback p obj r = q at hstep ⊢
      cases hstep with
      | blocking => exact .single (.remove hfd)
      | unconnected => exact .refl
      | connected hb hst hne =>
          have hopen := hheld.resolve_left hne
          have hstore : Act obj (p.sys (.getpeername obj tcp.fd true))
              ((p.sys (.getpeername obj tcp.fd true)).setTcp obj
                { tcp with state := .connected }) := by
            refine .store ⟨?_, ?_⟩
            · rintro n ⟨⟩
              exact Or.inr (((hpeer true).calls.opened _).trans hopen)
            · rintro t ⟨⟩ _ _
              rw [Process.sys_log, confirmed_use rfl rfl]
              simp [SysCall.fd, SysCall.confirms, openedBy_nonneg hopen]
          exact ((hpeer true).acts.tail hstore).trans (tcpSocketRearm_acts
            (((hpeer true).calls.opened _).trans hopen))
      | refused =>
          exact (hpeer false).acts.trans (tcpSocketFail_acts ((hpeer false).acts.owned h) ht)
      | closed hb hst =>
          have hremove : Act obj (p.sys (.recv obj tcp.fd 1 true))
              ((p.sys (.recv obj tcp.fd 1 true)).psRemoveSelect tcp.fd) := .remove hfd
          have howned := hremove.owned ((hrecv hst).acts.owned h)
          refine ((hrecv hst).acts.tail hremove).trans (Act.shut_acts howned hfd ?_)
          rintro n ⟨⟩
          rfl
      | broken hb hst =>
          exact (hrecv hst).acts.trans (tcpSocketFail_acts ((hrecv hst).acts.owned h) ht)
      | data hb hst hne =>
          exact (hrecv hst).acts.trans (tcpSocketRearm_acts
            (((hrecv hst).calls.opened _).trans (hheld.resolve_left hne)))

end Callback

end ProntoScript
