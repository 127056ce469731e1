/-
# Where the sockets send

`connect(2)` and `sendto` are the calls that name an address and a port.  `destinations`
reads them off a log; `TCPSocket_Connect` names at most one, and exactly one unless it
fails, and so does `UDPSocket_Send` (`tcpSocketConnect_destination`,
`udpSocketSend_destination`).
-/

import ProntoScript.Socket.Connect
import ProntoScript.Socket.Udp

namespace ProntoScript

/-- The address and the port the call names. -/
def SysCall.destination : SysCall → Option (UInt32 × ℕ)
  | .connect _ _ ip port _ => some (ip, port)
  | .sendto _ _ ip port _ => some (ip, port)
  | _ => none

/-- The destinations of a log, the latest first. -/
def destinations (log : List SysCall) : List (UInt32 × ℕ) := log.filterMap SysCall.destination

section Connect

variable {p : Process} {obj : ObjId} {tcp : TCPSocket} {argv : List JSVal} {r : ConnectReplies}
  {ip : UInt32} {port : ℕ} {timeout fd : ℤ}

/-- `fcntl` names none. -/
theorem destinations_setNonblocking {getfl setfl : Bool} :
    destinations (setNonblocking p obj fd getfl setfl).1.log = destinations p.log := by
  unfold setNonblocking
  split_ifs <;> rfl

/-- Nor do the calls that close an existing connection and ask for a descriptor. -/
theorem destinations_asked {socket : ℤ} :
    destinations (p.asked obj tcp socket).log = destinations p.log := by
  unfold Process.asked tcpSocketReset
  split_ifs <;> rfl

/-- `connect(2)` names the address and the port. -/
theorem destinations_start :
    destinations (tcpSocketStart p obj tcp ip port timeout r).1.log =
      (ip, port) :: destinations p.log := by
  unfold tcpSocketStart
  dsimp only
  split_ifs
  · rfl
  · cases hmem : r.mem <;> rfl
  · split <;> rfl

variable (p obj tcp ip port timeout r) in
/-- What `TCPSocket_Connect` names once it has its arguments. -/
theorem destinations_connectTo :
    destinations (tcpSocketConnectTo p obj tcp ip port timeout r).1.log =
        (ip, port) :: destinations p.log ∨
      destinations (tcpSocketConnectTo p obj tcp ip port timeout r).1.log = destinations p.log ∧
        (tcpSocketConnectTo p obj tcp ip port timeout r).2.isOk = false := by
  rw [tcpSocketConnectTo_eq]
  dsimp only
  split_ifs
  · left
    rw [destinations_start, destinations_asked]
  · left
    rw [destinations_start, destinations_setNonblocking, destinations_asked]
  · right
    exact ⟨by rw [destinations_setNonblocking, destinations_asked], rfl⟩

/-- The timeout of a call of `connect` whose arguments are good. -/
def connectTimeout (r : ConnectReplies) : List JSVal → ℤ
  | [timeout] => throughUint32 (jsvalToInt r.strayTimeout timeout)
  | _ => 5000

/-- The arguments a target is made of. -/
theorem connectTarget_ok (h : connectTarget r argv = .ok (ip, port, timeout)) :
    ∃ peer portArg rest, argv = peer :: portArg :: rest ∧ typeOfValue peer = .string ∧
      peerAddress r.inetAddr r.lookup (peerBytes peer) = .ok ip ∧
      port = toUint16 (jsvalToInt r.strayPort portArg) ∧ timeout = connectTimeout r rest := by
  unfold connectTarget at h
  cases hargs : tcpSocketConnectArgs r argv with
  | error e =>
      rw [hargs] at h
      cases h
  | ok args =>
      obtain ⟨bytes, port', timeout'⟩ := args
      rw [hargs] at h
      dsimp only at h
      cases haddr : peerAddress r.inetAddr r.lookup bytes with
      | error e =>
          rw [haddr] at h
          cases h
      | ok ip' =>
          rw [haddr] at h
          cases h
          match argv with
          | [] | [_] => cases hargs
          | peer :: portArg :: rest =>
              unfold tcpSocketConnectArgs at hargs
              dsimp only at hargs
              split_ifs at hargs with hpeer hport
              refine ⟨peer, portArg, rest, rfl, not_not.1 hpeer, ?_⟩
              match rest with
              | [timeoutArg] =>
                  dsimp only at hargs
                  split_ifs at hargs
                  cases hargs
                  exact ⟨haddr, rfl, rfl⟩
              | [] | _ :: _ :: _ =>
                  cases hargs
                  exact ⟨haddr, rfl, rfl⟩

variable (p obj argv r) in
/-- **`TCPSocket_Connect` names the address and the port of its arguments**, or none, and
then it fails. -/
theorem tcpSocketConnect_destination :
    (∃ ip port timeout, connectTarget r argv = .ok (ip, port, timeout) ∧
      destinations (tcpSocketConnect p obj argv r).1.log = (ip, port) :: destinations p.log) ∨
    destinations (tcpSocketConnect p obj argv r).1.log = destinations p.log ∧
      (tcpSocketConnect p obj argv r).2.isOk = false := by
  cases htarget : connectTarget r argv with
  | error e =>
      have hfail : (tcpSocketConnect p obj argv r).1 = p ∧
          (tcpSocketConnect p obj argv r).2.isOk = false := tcpSocketConnect_of_error htarget
      exact .inr ⟨by rw [hfail.1], hfail.2⟩
  | ok target =>
      obtain ⟨ip, port, timeout⟩ := target
      cases ht : p.tcp? obj with
      | none =>
          have hfail : tcpSocketConnect p obj argv r = (p, .error none) := by
            unfold tcpSocketConnect
            rw [ht]
          rw [hfail]
          exact .inr ⟨rfl, rfl⟩
      | some tcp =>
          rw [tcpSocketConnect_of_target ht htarget]
          rcases destinations_connectTo p obj tcp r ip port timeout with hone | hnone
          · exact .inl ⟨ip, port, timeout, rfl, hone⟩
          · exact .inr hnone

end Connect

/-! ### Sending -/

/-- What `UDPSocket_Send` does before it looks at its descriptor: the data, the address
and the port, or the error of an argument or the lookup. Source: lines 507-614 of
`js/src/ext/psudpsocket.c`. -/
def sendTarget (r : SendReplies) (argv : List JSVal) :
    Except (Option ErrorReport) (JSString × UInt32 × ℕ) :=
  match argv with
  | [.string data, peer, port] =>
      if typeOfValue peer ≠ .string then .error (some ⟨.argumentNotString, none⟩)
      else if typeOfValue port ≠ .number then .error (some ⟨.argumentNotInt, none⟩)
      else
        match peerAddress r.inetAddr r.lookup (peerBytes peer) with
        | .error e => .error e
        | .ok ip => .ok (data, ip, toUint16 (jsvalToInt r.strayPort port))
  | [_, _, _] => .error (some ⟨.argumentNotString, none⟩)
  | _ => .error (some ⟨.notEnoughArguments, none⟩)

/-- What `sendto` returns, given what the outside answers. -/
def sendtoResult (p : Process) (udp : UDPSocket) (data : JSString) (sent : ℤ) : ℤ :=
  if p.answer udp.fd (deflateString data).isSome then sent else -1

section Send

variable {p : Process} {obj : ObjId} {udp : UDPSocket} {argv : List JSVal} {r : SendReplies}
  {data : JSString} {ip : UInt32} {port : ℕ}

/-- `send` in terms of what it does first. -/
theorem udpSocketSend_eq (hu : p.udp? obj = some udp) :
    udpSocketSend p obj argv r =
      match sendTarget r argv with
      | .error e => (p, .error e)
      | .ok (data, ip, port) =>
          (p.sys (.sendto obj udp.fd ip port ((getStringBytes data).take data.length)),
            if sendtoResult p udp data r.sent = -1 then reportError .socketError none
            else .ok .void) := by
  unfold udpSocketSend sendTarget
  rw [hu]
  match argv with
  | [] => rfl
  | .string data :: rest =>
      match rest with
      | [] | [_] | _ :: _ :: _ :: _ => rfl
      | [peer, port] =>
          dsimp only
          by_cases hpeer : typeOfValue peer ≠ .string
          · rw [if_pos hpeer, if_pos hpeer]
            rfl
          · rw [if_neg hpeer, if_neg hpeer]
            by_cases hport : typeOfValue port ≠ .number
            · rw [if_pos hport, if_pos hport]
              rfl
            · rw [if_neg hport, if_neg hport]
              cases peerAddress r.inetAddr r.lookup (peerBytes peer) with
              | error e => rfl
              | ok ip =>
                  dsimp only
                  unfold sendtoResult
                  split_ifs <;> rfl
  | .void :: rest | .null :: rest | .int _ :: rest | .double _ :: rest | .boolean _ :: rest
  | .object _ :: rest | .function _ :: rest =>
      match rest with
      | [] | [_] | [_, _] | _ :: _ :: _ :: _ => rfl

/-- The arguments a target is made of. -/
theorem sendTarget_ok (h : sendTarget r argv = .ok (data, ip, port)) :
    ∃ peer portArg, argv = [.string data, peer, portArg] ∧ typeOfValue peer = .string ∧
      peerAddress r.inetAddr r.lookup (peerBytes peer) = .ok ip ∧
      port = toUint16 (jsvalToInt r.strayPort portArg) := by
  unfold sendTarget at h
  split at h
  · rename_i data' peer portArg
    split_ifs at h with hpeer hport
    cases haddr : peerAddress r.inetAddr r.lookup (peerBytes peer) with
    | error e =>
        rw [haddr] at h
        cases h
    | ok ip' =>
        rw [haddr] at h
        cases h
        exact ⟨peer, portArg, rfl, not_not.1 hpeer, haddr, rfl⟩
  · cases h
  · cases h

variable (p obj argv r) in
/-- **`UDPSocket_Send` names the address and the port of its arguments**, or none, and then
it fails. -/
theorem udpSocketSend_destination :
    (∃ data ip port, sendTarget r argv = .ok (data, ip, port) ∧
      destinations (udpSocketSend p obj argv r).1.log = (ip, port) :: destinations p.log) ∨
    destinations (udpSocketSend p obj argv r).1.log = destinations p.log ∧
      (udpSocketSend p obj argv r).2.isOk = false := by
  cases hu : p.udp? obj with
  | none =>
      have hfail : udpSocketSend p obj argv r = (p, .error none) := by
        unfold udpSocketSend
        rw [hu]
      rw [hfail]
      exact .inr ⟨rfl, rfl⟩
  | some udp =>
      rw [udpSocketSend_eq hu]
      cases htarget : sendTarget r argv with
      | error e => exact .inr ⟨rfl, rfl⟩
      | ok target =>
          obtain ⟨data, ip, port⟩ := target
          exact .inl ⟨data, ip, port, rfl, rfl⟩

end Send

end ProntoScript
