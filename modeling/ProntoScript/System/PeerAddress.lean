/-
# The address of a peer

`TCPSocket_Connect` (`js/src/ext/pstcpsocket.c`, lines 584-640) and `UDPSocket_Send`
(`js/src/ext/psudpsocket.c`, lines 554-611) hand a peer of digits and dots to `inet_addr`
and every other one to `getaddrinfo`.  A lookup that fails is reported.  `inet_addr` says
`INADDR_NONE` where the string is no address, which nothing looks at: it is the address
255.255.255.255.  A string without encoding becomes the empty one, and one with a NUL in it
is cut off there.

`peerDenotes` says which address a string denotes.  The methods use that one; where there is
none they go on all the same, unless the lookup was asked (`peer_address_iff`).
-/

import ProntoScript.Engine.Encoding
import ProntoScript.Socket.Destination
import ProntoScript.System.Effect

namespace ProntoScript

open Transition (Run)

/-- `INADDR_NONE`. -/
def INADDR_NONE : UInt32 := 0xFFFFFFFF

/-- The number that digits stand for. -/
def readDigits (base : ℕ) (digits : List UInt8) : ℕ :=
  digits.foldl (fun n c => base * n + (c.toNat - 0x30)) 0

/-- A part of a dotted address: a number, octal if it begins with a 0. -/
def inetPart : List UInt8 → Option ℕ
  | [] => none
  | [c] => some (readDigits 10 [c])
  | c :: digits =>
      if c = 0x30 then
        if digits.all (· < 0x38) then some (readDigits 8 digits) else none
      else some (readDigits 10 (c :: digits))

/-- The address of a string of digits and dots: one to four parts, of which the last one
fills the bytes that the others leave. -/
def inetAton (cp : List UInt8) : Option UInt32 :=
  match (cp.splitOn 0x2E).mapM inetPart with
  | some [a] => if a < 2 ^ 32 then some (UInt32.ofNat a) else none
  | some [a, b] =>
      if a < 2 ^ 8 ∧ b < 2 ^ 24 then some (UInt32.ofNat (a * 2 ^ 24 + b)) else none
  | some [a, b, c] =>
      if a < 2 ^ 8 ∧ b < 2 ^ 8 ∧ c < 2 ^ 16 then
        some (UInt32.ofNat (a * 2 ^ 24 + b * 2 ^ 16 + c))
      else none
  | some [a, b, c, d] =>
      if a < 2 ^ 8 ∧ b < 2 ^ 8 ∧ c < 2 ^ 8 ∧ d < 2 ^ 8 then
        some (UInt32.ofNat (a * 2 ^ 24 + b * 2 ^ 16 + c * 2 ^ 8 + d))
      else none
  | _ => none

/-- `inet_addr`, of a string of digits and dots. -/
def inetAddr (cp : List UInt8) : UInt32 := (inetAton cp).getD INADDR_NONE

example : inetAton [0x31, 0x30, 0x2E, 0x31] = some 0x0A000001 ∧
    inetAton [0x30, 0x31, 0x37] = some 15 ∧ inetAton [] = none ∧
    inetAton [0x32, 0x35, 0x36, 0x2E, 0x31] = none := by decide

/-- The address that a peer string denotes, given the answer of a lookup. -/
def peerDenotes (lookup : Option (List UInt32)) (s : JSString) : Option UInt32 :=
  (plainBytes s).bind fun peer => if isDotted peer then inetAton peer else lookup.bind List.head?

/-- No address is used but this. -/
def UsesAddress (p p' : Process) (ip : UInt32) : Prop :=
  ∀ ip' port, destinations p'.log = (ip', port) :: destinations p.log → ip' = ip

/-- The descriptor, the state and the registrations of a `TCPSocket` are as before. -/
def TcpUnchanged (p p' : Process) (obj : ObjId) : Prop :=
  (p'.tcp? obj).map (fun tcp => (tcp.fd, tcp.state)) =
      (p.tcp? obj).map (fun tcp => (tcp.fd, tcp.state)) ∧ p'.registry = p.registry

/-- The descriptor and the registrations of a `UDPSocket` are as before. -/
def UdpUnchanged (p p' : Process) (obj : ObjId) : Prop :=
  (p'.udp? obj).map (·.fd) = (p.udp? obj).map (·.fd) ∧ p'.registry = p.registry

/-- `connect` uses the address that its peer denotes, and fails and changes nothing if there
is none. -/
def ConnectsAsDenoted (p : Process) (obj : ObjId) (s : JSString) (rest : List JSVal)
    (r : ConnectReplies) : Prop :=
  let q := tcpSocketConnect p obj (.string s :: rest) r
  match peerDenotes r.lookup s with
  | some ip => UsesAddress p q.1 ip
  | none => q.2.isOk = false ∧ TcpUnchanged p q.1 obj

/-- `send` uses the address that its peer denotes, and fails and changes nothing if there is
none. -/
def SendsAsDenoted (p : Process) (obj : ObjId) (data : JSVal) (s : JSString) (port : JSVal)
    (r : SendReplies) : Prop :=
  let q := udpSocketSend p obj [data, .string s, port] r
  match peerDenotes r.lookup s with
  | some ip => UsesAddress p q.1 ip
  | none => q.2.isOk = false ∧ UdpUnchanged p q.1 obj

/-- The peer is looked up, and the lookup fails. -/
def LookupFails (lookup : Option (List UInt32)) (s : JSString) : Prop :=
  isDotted (peerBytes (.string s)) = false ∧ lookup = none

/-- The arguments of `connect` behind the peer are not a port and at most a timeout. -/
def ConnectArgsRefused : List JSVal → Prop
  | [] => True
  | port :: rest =>
      typeOfValue port ≠ .number ∨ ∃ timeout, rest = [timeout] ∧ typeOfValue timeout ≠ .number

/-- `connect` fails before it changes anything, by its arguments or for want of a
descriptor. -/
def ConnectHarmless (p : Process) (obj : ObjId) (s : JSString) (rest : List JSVal)
    (r : ConnectReplies) : Prop :=
  ConnectArgsRefused rest ∨ LookupFails r.lookup s ∨
    ∀ tcp, p.tcp? obj = some tcp → tcp.fd = -1 ∧ tcp.state ≠ .connected ∧ r.socket = -1

/-- `send` fails, by its arguments or in `sendto`. -/
def SendHarmless (p : Process) (obj : ObjId) (data : JSVal) (s : JSString) (port : JSVal)
    (r : SendReplies) : Prop :=
  typeOfValue port ≠ .number ∨ LookupFails r.lookup s ∨
    ∀ text udp, data = .string text → p.udp? obj = some udp → sendtoResult p udp text r.sent = -1

/-- Two methods that use an address use the same. -/
def SameAddress (p : Process) (q q' : Process) : Prop :=
  ∀ ip ip' port port', destinations q.log = (ip, port) :: destinations p.log →
    destinations q'.log = (ip', port') :: destinations p.log → ip = ip'

section Address

variable {s : JSString} {lookup : Option (List UInt32)} {ip : UInt32}

/-- A peer that denotes an address gets it. -/
theorem peerAddress_of_denotes (h : peerDenotes lookup s = some ip) :
    peerAddress (inetAddr (peerBytes (.string s))) lookup (peerBytes (.string s)) = .ok ip := by
  obtain ⟨peer, hplain, haddr⟩ := Option.bind_eq_some_iff.1 h
  obtain ⟨hbytes, hwhole⟩ := plainBytes_some hplain
  have hpeer : peerBytes (.string s) = peer := by
    rw [peerBytes, getStringBytes, hbytes, Option.getD_some, hwhole]
  rw [hpeer]
  unfold peerAddress
  split_ifs at haddr ⊢ with hdotted
  · rw [inetAddr, haddr]
    rfl
  · obtain ⟨infos, rfl, hhead⟩ := Option.bind_eq_some_iff.1 haddr
    cases infos with
    | nil => cases hhead
    | cons info infos =>
        cases hhead
        rfl

variable (lookup s) in
/-- The only error of the address is that of the lookup. -/
theorem peerAddress_isOk (inet : UInt32) :
    (peerAddress inet lookup (peerBytes (.string s))).isOk = true ↔ ¬LookupFails lookup s := by
  unfold peerAddress LookupFails
  cases isDotted (peerBytes (.string s)) with
  | true => simp [Except.isOk, Except.toBool]
  | false => cases lookup <;> simp [Except.isOk, Except.toBool]

end Address

/-! ### `connect` -/

section Connect

variable {p : Process} {obj : ObjId} {s : JSString} {rest : List JSVal} {r : ConnectReplies}
  {tcp : TCPSocket} {ip : UInt32}

variable (s rest r) in
/-- When `connect` gets as far as `socket`. -/
theorem connectTarget_isOk : (connectTarget r (.string s :: rest)).isOk = true ↔
    ¬ConnectArgsRefused rest ∧ ¬LookupFails r.lookup s := by
  rw [← peerAddress_isOk s r.lookup r.inetAddr]
  cases rest with
  | nil => exact iff_of_false (by rintro ⟨⟩) fun h => h.1 trivial
  | cons port rest =>
      unfold connectTarget tcpSocketConnectArgs ConnectArgsRefused
      dsimp only
      rw [if_neg (by simp [typeOfValue])]
      by_cases hport : typeOfValue port ≠ .number
      · rw [if_pos hport]
        exact iff_of_false (by rintro ⟨⟩) fun h => h.1 (.inl hport)
      · rw [if_neg hport]
        match rest with
        | [timeout] =>
            dsimp only
            by_cases htimeout : typeOfValue timeout ≠ .number
            · rw [if_pos htimeout]
              exact iff_of_false (by rintro ⟨⟩) fun h => h.1 (.inr ⟨timeout, rfl, htimeout⟩)
            · rw [if_neg htimeout]
              refine Iff.trans ?_ (and_iff_right ?_).symm
              · dsimp only
                cases peerAddress r.inetAddr r.lookup (peerBytes (.string s)) <;> exact Iff.rfl
              · rintro (hno | ⟨_, ⟨⟩, hno⟩)
                · exact hport hno
                · exact htimeout hno
        | [] | _ :: _ :: _ =>
            refine Iff.trans ?_ (and_iff_right ?_).symm
            · dsimp only
              cases peerAddress r.inetAddr r.lookup (peerBytes (.string s)) <;> exact Iff.rfl
            · rintro (hno | ⟨_, ⟨⟩, -⟩)
              exact hport hno

variable (ip) in
/-- A `connect` that got as far as `socket` fails and changes nothing only where there was
no descriptor, and it got none. -/
theorem connectTo_unchanged_iff {port : ℕ} {timeout : ℤ} (h : Owned p)
    (ht : p.tcp? obj = some tcp) (hfresh : (p.reset obj).Fresh r.socket) :
    ((tcpSocketConnectTo p obj tcp ip port timeout r).2.isOk = false ∧
      TcpUnchanged p (tcpSocketConnectTo p obj tcp ip port timeout r).1 obj) ↔
    tcp.fd = -1 ∧ tcp.state ≠ .connected ∧ r.socket = -1 := by
  have hleaves : ConnectLeaves (p.asked obj tcp r.socket) obj (tcp.asked r.socket)
      (connectEnd tcp.blocking r) timeout r.mem
      (tcpSocketConnectTo p obj tcp ip port timeout r) := tcpSocketConnectTo_leaves
  unfold TcpUnchanged
  rw [hleaves.tcp?, ht]
  constructor
  · rintro ⟨hfail, hsame, -⟩
    obtain ⟨hfd, hst⟩ := Prod.mk.inj (Option.some.inj hsame)
    have hnot : connectEnd tcp.blocking r ≠ .completed := fun hdone => by
      rw [hleaves.ok.2 (.inl hdone)] at hfail
      cases hfail
    have hstate : tcp.state ≠ .connected := by
      intro hc
      have hasked : (tcp.asked r.socket).state = .unconnected := if_pos hc
      dsimp only at hst
      rw [hasked, hc] at hst
      cases hend : connectEnd tcp.blocking r <;> rw [hend] at hst <;> cases hst
      exact hnot hend
    have hreset : p.reset obj = p := by
      unfold Process.reset tcpSocketReset
      rw [ht]
      dsimp only
      rw [if_neg hstate]
    rw [hreset] at hfresh
    have hsocket : r.socket = tcp.fd := hfd
    rcases hfresh with hnone | ⟨-, hclosed⟩
    · exact ⟨hsocket.symm.trans hnone, hstate, hnone⟩
    · rcases h.held_tcp ht with hfd' | hopen
      · exact ⟨hfd', hstate, hsocket.trans hfd'⟩
      · rw [hsocket, hopen] at hclosed
        cases hclosed
  · rintro ⟨hfd, hst, hsocket⟩
    have hend : connectEnd tcp.blocking r = .failed := connectEnd_of_neg (by omega)
    have hstate : (tcp.asked r.socket).state = tcp.state := if_neg hst
    refine ⟨?_, ?_, ?_⟩
    · rw [← Bool.not_eq_true, hleaves.ok, hend]
      rintro (hno | ⟨hno, -⟩) <;> cases hno
    · rw [hend, ConnectEnd.state, hstate, hsocket, ← hfd]
      rfl
    · rw [hleaves.registry, hend, if_neg (by rintro ⟨⟨⟩, -⟩), asked_registry]

/-- **`connect` and the address its peer denotes.** -/
theorem connectsAsDenoted_iff (h : Owned p) (hfresh : (p.reset obj).Fresh r.socket)
    (hinet : r.inetAddr = inetAddr (peerBytes (.string s))) :
    ConnectsAsDenoted p obj s rest r ↔
      (peerDenotes r.lookup s).isSome = true ∨ ConnectHarmless p obj s rest r := by
  unfold ConnectsAsDenoted
  dsimp only
  cases hdenotes : peerDenotes r.lookup s with
  | some ip =>
      refine iff_of_true ?_ (.inl rfl)
      intro ip' port hdest
      rcases tcpSocketConnect_destination p obj (.string s :: rest) r with
        ⟨ip'', port', timeout, htarget, hdest'⟩ | ⟨hsame, -⟩
      · obtain ⟨peer, portArg, rest', hargv, -, haddress, -⟩ := connectTarget_ok htarget
        cases hargv
        rw [hinet, peerAddress_of_denotes hdenotes] at haddress
        cases haddress
        cases hdest.symm.trans hdest'
        rfl
      · rw [hsame] at hdest
        exact absurd hdest.symm (List.cons_ne_self _ _)
  | none =>
      unfold ConnectHarmless
      simp only [Option.isSome_none, Bool.false_eq_true, false_or]
      cases htarget : connectTarget r (.string s :: rest) with
      | error e =>
          obtain ⟨hsame, hfail⟩ : (tcpSocketConnect p obj (.string s :: rest) r).1 = p ∧
              (tcpSocketConnect p obj (.string s :: rest) r).2.isOk = false :=
            tcpSocketConnect_of_error htarget
          have hno : ¬(¬ConnectArgsRefused rest ∧ ¬LookupFails r.lookup s) := by
            rw [← connectTarget_isOk, htarget]
            rintro ⟨⟩
          refine iff_of_true ⟨hfail, ?_⟩ ?_
          · rw [hsame]
            exact ⟨rfl, rfl⟩
          · rw [not_and_or, not_not, not_not] at hno
            exact hno.imp_right .inl
      | ok target =>
          obtain ⟨ip, port, timeout⟩ := target
          have hgood := (connectTarget_isOk s rest r).1 (by rw [htarget]; rfl)
          rw [or_iff_right hgood.1, or_iff_right hgood.2]
          cases ht : p.tcp? obj with
          | none =>
              have hfail : tcpSocketConnect p obj (.string s :: rest) r = (p, .error none) := by
                unfold tcpSocketConnect
                rw [ht]
              rw [hfail]
              exact iff_of_true ⟨rfl, rfl, rfl⟩ (by rintro tcp ⟨⟩)
          | some tcp =>
              rw [tcpSocketConnect_of_target ht htarget, connectTo_unchanged_iff ip h ht hfresh]
              constructor
              · rintro hall _ ⟨⟩
                exact hall
              · exact fun hall => hall tcp rfl

end Connect

/-! ### `send` -/

section Send

variable {p : Process} {obj : ObjId} {data port : JSVal} {s : JSString} {r : SendReplies}

variable (data s port r) in
/-- When `send` gets as far as `sendto`. -/
theorem sendTarget_isOk : (sendTarget r [data, .string s, port]).isOk = true ↔
    (∃ text, data = .string text) ∧ ¬typeOfValue port ≠ .number ∧ ¬LookupFails r.lookup s := by
  rw [← peerAddress_isOk s r.lookup r.inetAddr]
  cases data with
  | string text =>
      unfold sendTarget
      dsimp only
      rw [if_neg (by simp [typeOfValue])]
      by_cases hport : typeOfValue port ≠ .number
      · rw [if_pos hport]
        exact iff_of_false (by rintro ⟨⟩) fun h => h.2.1 hport
      · rw [if_neg hport]
        refine Iff.trans ?_ (and_iff_right ⟨text, rfl⟩).symm
        refine Iff.trans ?_ (and_iff_right hport).symm
        cases peerAddress r.inetAddr r.lookup (peerBytes (.string s)) <;> exact Iff.rfl
  | _ => exact iff_of_false (by rintro ⟨⟩) (by rintro ⟨⟨_, ⟨⟩⟩, -⟩)

/-- **`send` and the address its peer denotes.** -/
theorem sendsAsDenoted_iff (hinet : r.inetAddr = inetAddr (peerBytes (.string s))) :
    SendsAsDenoted p obj data s port r ↔
      (peerDenotes r.lookup s).isSome = true ∨ SendHarmless p obj data s port r := by
  unfold SendsAsDenoted
  dsimp only
  cases hdenotes : peerDenotes r.lookup s with
  | some ip =>
      refine iff_of_true ?_ (.inl rfl)
      intro ip' port' hdest
      rcases udpSocketSend_destination p obj [data, .string s, port] r with
        ⟨text, ip'', port'', htarget, hdest'⟩ | ⟨hsame, -⟩
      · obtain ⟨peer, portArg, hargv, -, haddress, -⟩ := sendTarget_ok htarget
        cases hargv
        rw [hinet, peerAddress_of_denotes hdenotes] at haddress
        cases haddress
        cases hdest.symm.trans hdest'
        rfl
      · rw [hsame] at hdest
        exact absurd hdest.symm (List.cons_ne_self _ _)
  | none =>
      unfold SendHarmless
      simp only [Option.isSome_none, Bool.false_eq_true, false_or]
      cases hu : p.udp? obj with
      | none =>
          have hfail : udpSocketSend p obj [data, .string s, port] r = (p, .error none) := by
            unfold udpSocketSend
            rw [hu]
          rw [hfail]
          exact iff_of_true ⟨rfl, rfl, rfl⟩ (.inr (.inr (by rintro _ _ - ⟨⟩)))
      | some udp =>
          rw [udpSocketSend_eq hu]
          cases htarget : sendTarget r [data, .string s, port] with
          | error e =>
              have hno := mt (sendTarget_isOk data port s r).2 (by rw [htarget]; rintro ⟨⟩)
              refine iff_of_true ⟨rfl, rfl, rfl⟩ ?_
              by_cases hport : typeOfValue port ≠ .number
              · exact .inl hport
              · by_cases hlookup : LookupFails r.lookup s
                · exact .inr (.inl hlookup)
                · refine .inr (.inr fun text _ hdata _ => ?_)
                  exact (hno ⟨⟨text, hdata⟩, hport, hlookup⟩).elim
          | ok target =>
              obtain ⟨text, ip, port'⟩ := target
              obtain ⟨⟨_, rfl⟩, hport, hlookup⟩ :=
                (sendTarget_isOk data port s r).1 (by rw [htarget]; rfl)
              obtain ⟨_, _, hargv, -⟩ := sendTarget_ok htarget
              cases hargv
              rw [or_iff_right hport, or_iff_right hlookup]
              dsimp only
              by_cases hsent : sendtoResult p udp text r.sent = -1
              · rw [if_pos hsent]
                refine iff_of_true ⟨rfl, rfl, rfl⟩ ?_
                rintro _ _ ⟨⟩ ⟨⟩
                exact hsent
              · rw [if_neg hsent]
                exact iff_of_false (by rintro ⟨⟨⟩, -⟩) fun h => hsent (h text udp rfl rfl)

end Send

/-- Two methods with the same answers of the resolver use the same address. -/
theorem same_address {p : Process} {obj obj' : ObjId} {s : JSString} {rest : List JSVal}
    {data port : JSVal} {r : ConnectReplies} {r' : SendReplies}
    (hinet : r.inetAddr = r'.inetAddr) (hlookup : r.lookup = r'.lookup) :
    SameAddress p (tcpSocketConnect p obj (.string s :: rest) r).1
      (udpSocketSend p obj' [data, .string s, port] r').1 := by
  intro ip ip' port' port'' hdest hdest'
  rcases tcpSocketConnect_destination p obj (.string s :: rest) r with
    ⟨i, n, timeout, htarget, hused⟩ | ⟨hsame, -⟩
  · rcases udpSocketSend_destination p obj' [data, .string s, port] r' with
      ⟨text, i', n', htarget', hused'⟩ | ⟨hsame, -⟩
    · obtain ⟨peer, portArg, rest', hargv, -, haddress, -⟩ := connectTarget_ok htarget
      obtain ⟨peer', portArg', hargv', -, haddress', -⟩ := sendTarget_ok htarget'
      cases hargv
      cases hargv'
      rw [hinet, hlookup, haddress'] at haddress
      cases haddress
      cases hdest.symm.trans hused
      cases hdest'.symm.trans hused'
      rfl
    · rw [hsame] at hdest'
      exact absurd hdest'.symm (List.cons_ne_self _ _)
  · rw [hsame] at hdest
    exact absurd hdest.symm (List.cons_ne_self _ _)

/-! ### Both methods -/

/-- **The address of a peer.**  In every reachable state both methods use the address that
the peer denotes, and the same one; where it denotes none, they go on unless the lookup
was asked and failed, or fail for another reason that leaves everything as it was.  A
string of digits and dots that is no address becomes `INADDR_NONE`, which nothing checks.
Source: `TCPSocket_Connect` (lines 584-640 of `js/src/ext/pstcpsocket.c`) and
`UDPSocket_Send` (lines 554-611 of `js/src/ext/psudpsocket.c`). -/
theorem peer_address_iff {w : World} {ls : List Label} (hrun : Run World.Step .start ls w)
    (obj obj' : ObjId) (s : JSString) (rest : List JSVal) (data port : JSVal)
    (r : ConnectReplies) (r' : SendReplies) (hfresh : (w.proc.reset obj).Fresh r.socket)
    (hinet : r.inetAddr = inetAddr (peerBytes (.string s)))
    (hinet' : r'.inetAddr = inetAddr (peerBytes (.string s))) :
    (ConnectsAsDenoted w.proc obj s rest r ↔
      (peerDenotes r.lookup s).isSome = true ∨ ConnectHarmless w.proc obj s rest r) ∧
    (SendsAsDenoted w.proc obj' data s port r' ↔
      (peerDenotes r'.lookup s).isSome = true ∨ SendHarmless w.proc obj' data s port r') ∧
    (r.lookup = r'.lookup →
      SameAddress w.proc (tcpSocketConnect w.proc obj (.string s :: rest) r).1
        (udpSocketSend w.proc obj' [data, .string s, port] r').1) :=
  ⟨connectsAsDenoted_iff (World.owned_of_run hrun) hfresh hinet, sendsAsDenoted_iff hinet',
    same_address (hinet.trans hinet'.symm)⟩

/-- The peer 256.0.0.1. -/
def noAddress : JSString := [0x32, 0x35, 0x36, 0x2E, 0x30, 0x2E, 0x30, 0x2E, 0x31]

/-- The peer 10.1. -/
def dottedPeer : JSString := [0x31, 0x30, 0x2E, 0x31]

/-- A script that has made a blocking `TCPSocket`. -/
def withTcp : World :=
  ⟨(tcpSocketCT .start 0 [.boolean true] true).1, [.interpreting], []⟩

/-- A script may make a socket first. -/
theorem withTcp_reachable :
    Run World.Step .start [.execute, .script (.newTCPSocket 0 [.boolean true] true)] withTcp :=
  World.run_of_foldlM rfl

/-- What `connect` gets for that peer: no route to 255.255.255.255. -/
def noAddressReplies : ConnectReplies where
  strayPort := 0
  strayTimeout := 0
  inetAddr := INADDR_NONE
  lookup := none
  socket := 3
  getfl := true
  setfl := true
  connect := .failed "Network is unreachable"
  mem := true

/-- The peer 10.1, in a call of each. -/
theorem peer_address_dotted :
    ConnectsAsDenoted withTcp.proc 0 dottedPeer [.int 80]
        { noAddressReplies with inetAddr := 0x0A000001, connect := .done } ∧
      SendsAsDenoted withTcp.proc 1 (.string []) dottedPeer (.int 80)
        ⟨0, 0x0A000001, none, 1⟩ :=
  have h := peer_address_iff withTcp_reachable 0 1 dottedPeer [.int 80] (.string [])
    (.int 80) { noAddressReplies with inetAddr := 0x0A000001, connect := .done }
    ⟨0, 0x0A000001, none, 1⟩ (by decide) (by decide) (by decide)
  ⟨h.1.2 (.inl (by decide)), h.2.1.2 (.inl (by decide))⟩

/-- **`connect("256.0.0.1", 80)` goes to 255.255.255.255**, and the descriptor made for it
stays with the socket although the call fails. -/
theorem broadcast_connected : ¬∀ (w : World) (ls : List Label) (obj : ObjId) (s : JSString)
    (rest : List JSVal) (r : ConnectReplies), Run World.Step .start ls w →
    (w.proc.reset obj).Fresh r.socket → r.inetAddr = inetAddr (peerBytes (.string s)) →
    ConnectsAsDenoted w.proc obj s rest r := by
  intro hclaim
  have hconnect := hclaim withTcp _ 0 noAddress [.int 80] noAddressReplies withTcp_reachable
    (by decide) (by decide)
  have hfd : (((tcpSocketConnect withTcp.proc 0 [.string noAddress, .int 80]
      noAddressReplies).1.tcp? 0).map fun tcp => (tcp.fd, tcp.state)) =
        some (3, .unconnected) := by decide
  have hsame := hconnect.2.1
  rw [hfd] at hsame
  exact absurd hsame (by decide)

end ProntoScript
