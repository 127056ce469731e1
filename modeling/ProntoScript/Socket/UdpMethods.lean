/-
# What the functions of `UDPSocket` leave

The constructor asks for a descriptor, binds it, makes it non-blocking and
registers it; only a run of it without any failure attaches the descriptor to
the object (`udpSocketOpen_leaves`).  The rest of the class is `close`, the
finaliser, `send`, the assignment of handlers and the select callback.
-/

import ProntoScript.Socket.Effects

namespace ProntoScript

open Relation (ReflTransGen)

/-- The registration a `UDPSocket` makes. -/
def udpEvent (obj : ObjId) : PSSelectEvent :=
  ⟨PSFDSET_READ, obj, .udpSocketSelectCallback, .udpSocketSelectErrorCallback, addTimeout (-1)⟩

/-- Every call of the constructor from `socket` on succeeds. -/
def udpOpens (r : UdpReplies) : Bool :=
  decide (0 ≤ r.socket) && r.bind && (r.getfl && r.setfl) && r.mem

section Open

variable {obj : ObjId} {p : Process} {udp : UDPSocket} {r : UdpReplies} {argv : List JSVal}

variable (obj p) in
/-- What the constructor leaves from `socket` on, for a port in order. -/
theorem udpSocketOpen_leaves (hfd : udp.fd = r.socket) (hport : udp.port ≠ -1) :
    (∀ m, openedBy (udpSocketOpen p obj udp r).1.log m =
      if 0 ≤ r.socket ∧ r.socket = m then some obj else openedBy p.log m) ∧
    (udpSocketOpen p obj udp r).1.objs = (if udpOpens r = true then
      Function.update p.objs obj (.live (.udpSocket (some udp))) else p.objs) ∧
    (udpSocketOpen p obj udp r).1.registry = (if udpOpens r = true then
      p.registry.insert r.socket (udpEvent obj) else p.registry) := by
  have hsocket : ∀ m, openedBy (p.sys (.socket obj udp.fd)).log m =
      if 0 ≤ r.socket ∧ r.socket = m then some obj else openedBy p.log m := fun m => by
    rw [Process.sys_log, openedBy_socket, hfd]
  unfold udpSocketOpen udpOpens
  dsimp only
  by_cases hneg : udp.fd < 0
  · have hno : decide (0 ≤ r.socket) = false := decide_eq_false (by omega)
    rw [if_pos hneg, hno]
    exact ⟨hsocket, rfl, rfl⟩
  · have hnn : 0 ≤ r.socket := by omega
    rw [if_neg hneg, decide_eq_true hnn, Bool.true_and]
    have hopen : openedBy (p.sys (.socket obj udp.fd)).log udp.fd = some obj := by
      rw [hsocket, if_pos ⟨hnn, hfd.symm⟩]
    have hbind : udpSocketBind (p.sys (.socket obj udp.fd)) obj udp r.bind =
        ((p.sys (.socket obj udp.fd)).sys (.bind obj udp.fd udp.port.toNat), r.bind) := by
      rw [udpSocketBind, if_pos hport, Process.answer_of_open fun _ => hopen,
        decide_eq_true (by omega : 0 ≤ udp.fd), Bool.true_and]
    rw [hbind]
    have hcalls : Calls (p.sys (.socket obj udp.fd))
        ((p.sys (.socket obj udp.fd)).sys (.bind obj udp.fd udp.port.toNat)) := .sys rfl rfl
    cases hb : r.bind with
    | false => exact ⟨fun m => (hcalls.opened m).trans (hsocket m), rfl, rfl⟩
    | true =>
        -- the two calls of `fcntl`, and then the registration
        have hcalls' := hcalls.trans (setNonblocking_calls obj _ udp.fd r.getfl r.setfl)
        have hset := setNonblocking_ok r.getfl r.setfl fun _ => (hcalls.opened udp.fd).trans hopen
        generalize hs : setNonblocking ((p.sys (.socket obj udp.fd)).sys
          (.bind obj udp.fd udp.port.toNat)) obj udp.fd r.getfl r.setfl = s at hcalls' hset ⊢
        have hopened := fun m => (hcalls'.opened m).trans (hsocket m)
        rw [decide_eq_true (by omega : 0 ≤ udp.fd), Bool.true_and] at hset
        cases hfl : r.getfl && r.setfl with
        | false =>
            rw [hfl] at hset
            simp only [hset, Bool.not_true, Bool.not_false, Bool.false_eq_true, if_false, if_true,
              Bool.and_false, Bool.false_and]
            exact ⟨hopened, hcalls'.objs, hcalls'.registry⟩
        | true =>
            rw [hfl] at hset
            simp only [hset, Bool.not_true, Bool.false_eq_true, if_false, Process.psAddSelect]
            cases hm : r.mem with
            | false => exact ⟨hopened, hcalls'.objs, hcalls'.registry⟩
            | true =>
                refine ⟨hopened, ?_, ?_⟩
                · exact congrArg (Function.update · obj _) hcalls'.objs
                · simp only [if_true, Process.setUdp_registry, Bool.and_true]
                  rw [hcalls'.registry, hfd]
                  rfl

/-- The constructor from `socket` on. -/
theorem udpSocketOpen_acts (hfd : udp.fd = r.socket) (hfresh : p.Fresh r.socket) :
    Acts obj p (udpSocketOpen p obj udp r).1 := by
  have hsocket : Acts obj p (p.sys (.socket obj udp.fd)) := .single (.socket (hfd ▸ hfresh))
  unfold udpSocketOpen
  dsimp only
  by_cases hneg : udp.fd < 0
  · rw [if_pos hneg]
    exact hsocket
  · rw [if_neg hneg]
    have hopen : openedBy (p.sys (.socket obj udp.fd)).log udp.fd = some obj := by
      rw [Process.sys_log, openedBy_socket, if_pos ⟨by omega, rfl⟩]
    have hbind : ActsOnly obj (p.sys (.socket obj udp.fd))
        (udpSocketBind (p.sys (.socket obj udp.fd)) obj udp r.bind).1 := by
      unfold udpSocketBind
      split_ifs
      · exact .use rfl rfl rfl (SysCall.respects_of_open rfl fun _ => hopen)
      · exact .refl obj _
    generalize udpSocketBind (p.sys (.socket obj udp.fd)) obj udp r.bind = s at hbind ⊢
    have hbound := hsocket.trans hbind.acts
    have hopen' := (hbind.calls.opened udp.fd).trans hopen
    split_ifs
    · exact hbound
    · exact hbound.trans (setNonblocking_acts _ _ fun _ => hopen')
    · have hset := hbound.trans (setNonblocking_acts r.getfl r.setfl fun _ => hopen')
      have hopen'' :=
        ((setNonblocking_calls obj s.1 udp.fd r.getfl r.setfl).opened udp.fd).trans hopen'
      unfold Process.psAddSelect
      cases r.mem with
      | false => exact hset
      | true =>
          refine (hset.tail (.add hopen'' rfl)).tail (.store ⟨?_, fun t ht => by cases ht⟩)
          rintro n ⟨⟩
          exact Or.inr hopen''

/-- The port of the constructor is never -1: a socket is always bound. -/
theorem port_ne (i : ℤ) : (toUint16 i : ℤ) ≠ -1 := by omega

/-- What the constructor leaves of a new object. -/
structure UdpLeaves (p : Process) (obj : ObjId) (opens : Bool) (socket : ℤ) (q : Process) :
    Prop where
  objs : ∃ priv : Option UDPSocket, priv.map UDPSocket.fd = (if opens then some socket else none) ∧
    q.objs = Function.update p.objs obj (.live (.udpSocket priv))
  registry : q.registry = if opens then p.registry.insert socket (udpEvent obj) else p.registry

/-- `UDPSocket_CT`: a number for a port is refused before `socket` is called. -/
theorem udpSocketCT_leaves {q : Process × Native} (hq : udpSocketCT p obj argv r = some q) :
    if typeOfValue (argv.headD .void) = .number then q.1 = p.setObj obj (.live (.udpSocket none))
    else UdpLeaves p obj (udpOpens r) r.socket q.1 ∧
      ∀ m, openedBy q.1.log m =
        if 0 ≤ r.socket ∧ r.socket = m then some obj else openedBy p.log m := by
  unfold udpSocketCT at hq
  dsimp only at hq
  by_cases hnum : typeOfValue (argv.headD .void) = .number
  · rw [if_neg (not_not.2 hnum)] at hq
    rw [if_pos hnum]
    cases hq
    rfl
  · rw [if_pos hnum, Option.map_eq_some_iff] at hq
    obtain ⟨udp, -, rfl⟩ := hq
    rw [if_neg hnum]
    have hopen := fun udp : UDPSocket =>
      @udpSocketOpen_leaves obj (p.setObj obj (.live (.udpSocket none))) udp r
    obtain ⟨hopened, hobjs, hreg⟩ := hopen { udp with
      fd := r.socket, port := toUint16 (jsvalToInt r.strayPort (argv.headD .void)) } rfl (port_ne _)
    refine ⟨⟨?_, hreg⟩, hopened⟩
    rw [hobjs]
    cases udpOpens r with
    | false => exact ⟨none, rfl, rfl⟩
    | true => exact ⟨_, rfl, Function.update_idem ..⟩

/-- `UDPSocket_CT`. -/
theorem udpSocketCT_acts {q : Process × Native} (hfresh : p.Fresh r.socket)
    (hq : udpSocketCT p obj argv r = some q) : Acts obj p q.1 := by
  have hstore : Act obj p (p.setObj obj (.live (.udpSocket none))) :=
    .store (.of_closed fun n hn => by cases hn)
  unfold udpSocketCT at hq
  dsimp only at hq
  split_ifs at hq
  · rw [Option.map_eq_some_iff] at hq
    obtain ⟨udp, -, rfl⟩ := hq
    exact (ReflTransGen.single hstore).trans (udpSocketOpen_acts rfl hfresh)
  · cases hq
    exact .single hstore

end Open

/-! ### The other functions -/

section Methods

variable {obj : ObjId} {p : Process} {udp : UDPSocket} {argv : List JSVal}

/-- `UDPSocket_Close`. -/
theorem udpSocketClose_acts : Acts obj p (udpSocketClose p obj).1 := by
  unfold udpSocketClose
  cases hu : p.udp? obj with
  | none => exact .refl
  | some udp =>
      have hfd := Process.fdOf_of_udp? hu
      dsimp only
      split_ifs
      · refine (ReflTransGen.single (.remove hfd)).tail
          (.close (p := p.psRemoveSelect udp.fd) hfd ?_)
        rintro n ⟨⟩
        rfl
      · exact .refl

/-- `UDPSocket_DT`. -/
theorem udpSocketDT_acts : Acts obj p (udpSocketDT p obj) := by
  unfold udpSocketDT
  cases hu : p.udp? obj with
  | none => exact .single (.store (.of_closed fun n hn => by cases hn))
  | some udp =>
      dsimp only
      split_ifs
      · exact .single (.close (Process.fdOf_of_udp? hu) fun n hn => by cases hn)
      · exact .single (.store (.of_closed fun n hn => by cases hn))

/-- It leaves the registered events alone, and calls neither of the select functions. -/
theorem udpSocketDT_registry : (udpSocketDT p obj).registry = p.registry := by
  unfold udpSocketDT
  cases p.udp? obj with
  | none => rfl
  | some udp =>
      dsimp only
      split_ifs <;> rfl

/-- A finaliser calls neither of the select functions. -/
theorem udpSocketDT_selects : (udpSocketDT p obj).selects = p.selects := by
  unfold udpSocketDT
  cases p.udp? obj with
  | none => rfl
  | some udp =>
      dsimp only
      split_ifs <;> rfl

/-- `UDPSocket_Send`. -/
theorem udpSocketSend_acts {r : SendReplies} (h : Owned p) :
    ActsOnly obj p (udpSocketSend p obj argv r).1 := by
  unfold udpSocketSend
  cases hu : p.udp? obj with
  | none => exact .refl obj p
  | some udp =>
      have hopen := open_of_held (h.held_udp hu)
      dsimp only
      split
      · split
        · exact .refl obj p
        · split
          · exact .refl obj p
          · split
            · exact .refl obj p
            · split_ifs <;> exact .use rfl rfl rfl (SysCall.respects_of_open rfl hopen)
      · exact .refl obj p
      · exact .refl obj p

/-- `UDPSocket_SetProperty` stores a handler. -/
theorem udpSocketSetProperty_acts {slot : UDPSocketTinyId} {vp : JSVal} {q : Process} (h : Owned p)
    (hq : udpSocketSetProperty p obj slot vp = some q) :
    q = p ∨ ∃ udp udp' : UDPSocket, p.udp? obj = some udp ∧ udp'.fd = udp.fd ∧
      q = p.setUdp obj udp' ∧ Acts obj p q := by
  unfold udpSocketSetProperty at hq
  split_ifs at hq
  · cases hu : p.udp? obj with
    | none => rw [hu] at hq; cases hq
    | some udp =>
        rw [hu, Option.map_some] at hq
        have hstore : ∀ udp' : UDPSocket, udp'.fd = udp.fd → Acts obj p (p.setUdp obj udp') := by
          intro udp' hfd
          refine .single (.store ⟨?_, fun t ht => by cases ht⟩)
          rintro n ⟨⟩
          rw [hfd]
          exact h.held_udp hu
        right
        cases slot with
        | onData =>
            obtain rfl := Option.some.inj hq
            exact ⟨udp, { udp with onData := vp }, rfl, rfl, rfl, hstore _ rfl⟩
        | onIOError =>
            obtain rfl := Option.some.inj hq
            exact ⟨udp, { udp with onIOError := vp }, rfl, rfl, rfl, hstore _ rfl⟩
  · exact Or.inl (Option.some.inj hq).symm

/-- The receive loop. -/
theorem receiveLoop_acts {fd : ℤ} {data : JSString} {addr : InAddr} {port : ℕ}
    {replies : List RecvfromReply} {q : Process × Received}
    (hopen : 0 ≤ fd → openedBy p.log fd = some obj)
    (hq : receiveLoop p obj fd data addr port replies = some q) : ActsOnly obj p q.1 := by
  induction replies generalizing p data addr port with
  | nil => cases hq
  | cons r replies ih =>
      unfold receiveLoop at hq
      dsimp only at hq
      generalize (if p.answer fd true = true then r else RecvfromReply.error) = reply at hq
      have hrecv : ActsOnly obj p (p.sys (.recvfrom obj fd 256)) :=
        .use rfl rfl rfl (SysCall.respects_of_open rfl hopen)
      split at hq
      · split_ifs at hq
        cases hq
        exact hrecv
      · split_ifs at hq
        cases hq
        exact hrecv
      · split_ifs at hq
        split at hq
        · cases hq
        · exact hrecv.trans (ih (fun hnn => (hrecv.calls.opened fd).trans (hopen hnn)) hq)

/-- `UDPSocket_SelectCallback`. -/
theorem udpSocketSelectCallback_acts {replies : List RecvfromReply} {q : Process × CallbackExit}
    (h : Owned p) (hq : udpSocketSelectCallback p obj replies = some q) : ActsOnly obj p q.1 := by
  unfold udpSocketSelectCallback at hq
  cases hu : p.udp? obj with
  | none =>
      rw [hu] at hq
      cases hq
      exact .refl obj p
  | some udp =>
      rw [hu] at hq
      dsimp only at hq
      have hopen := open_of_held (h.held_udp hu)
      split at hq
      · cases hq
      · rename_i hr
        cases hq
        exact receiveLoop_acts hopen hr
      · rename_i hr
        cases hq
        exact receiveLoop_acts hopen hr

end Methods

end ProntoScript
