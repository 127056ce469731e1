/-
# The integer arguments of the sockets

What the methods do with an int: a port goes into a `JSUint16` before `htons`, and so does
the count of `read`; the timeout of `connect` goes through a `JSUint32` to the `int` of
`ps_AddSelect`, which takes -1 for the sentinel and divides everything else as C does,
rounding towards zero.  None of them is compared with a bound.

An int is honoured if no call goes on with another value.  That is so for the ports and
counts of 16 bits and for the timeouts from -1 on, and for no others
(`arguments_honoured_iff`).
-/

import Mathlib.Algebra.GroupWithZero.Nat
import Mathlib.Tactic.ByContra
import ProntoScript.Select.Request
import ProntoScript.Socket.Destination
import ProntoScript.Socket.Transfer

namespace ProntoScript

/-- The integer of an int-tagged `jsval`, of 31 bits. -/
abbrev JsvalInt := { i : ℤ // -(2 ^ 30) < i ∧ i < 2 ^ 30 }

/-- `connect` fails or names the port it was given. -/
def ConnectHonoursPort (i : ℤ) : Prop :=
  ∀ p obj peer rest r, (tcpSocketConnect p obj (peer :: .int i :: rest) r).2.isOk = true →
    ∃ ip port, destinations (tcpSocketConnect p obj (peer :: .int i :: rest) r).1.log =
      (ip, port) :: destinations p.log ∧ (port : ℤ) = i

/-- `send` fails or names the port it was given. -/
def SendHonoursPort (i : ℤ) : Prop :=
  ∀ p obj data peer r, (udpSocketSend p obj [data, peer, .int i] r).2.isOk = true →
    ∃ ip port, destinations (udpSocketSend p obj [data, peer, .int i] r).1.log =
      (ip, port) :: destinations p.log ∧ (port : ℤ) = i

/-- A timeout of so many milliseconds, or none. -/
def Timespec.IsTimeout (t : Timespec) (ms : ℤ) : Prop :=
  t = setNoTimeout ∨ t.Normalised ∧ t.ns = ms * 1000000

/-- `connect` fails, or is done, or registers an event with the timeout it was given. -/
def ConnectHonoursTimeout (i : ℤ) : Prop :=
  ∀ p obj peer port r tcp, (tcpSocketConnect p obj [peer, port, .int i] r).2.isOk = true →
    (tcpSocketConnect p obj [peer, port, .int i] r).1.tcp? obj = some tcp →
    tcp.state = .connecting →
    ∃ ev, (tcpSocketConnect p obj [peer, port, .int i] r).1.registry.lookup tcp.fd = some ev ∧
      ev.timeout.IsTimeout i

/-- The bytes of all answers of `recv`. -/
def totalLength (replies : List RecvReply) : ℕ := (replies.map RecvReply.length).sum

/-- `read` fails, or returns what `recv` gave it: the number of bytes it was given, or fewer
at the end of the stream. -/
def ReadHonoursCount (i : ℤ) : Prop :=
  ∀ p obj rest stray replies q, tcpSocketRead p obj (.int i :: rest) stray replies = some q →
    q.2.isOk = true →
    (totalLength replies : ℤ) ≤ i ∧
      ((totalLength replies : ℤ) = i ∨ replies.getLast? = some (.bytes []))

/-- The methods honour these arguments or fail: the port is the one connected or sent to,
the count the number of bytes asked for, and the timeout the time that is waited. -/
structure ArgumentsHonoured (port timeout count : ℤ) : Prop where
  connectPort : ConnectHonoursPort port
  sendPort : SendHonoursPort port
  connectTimeout : ConnectHonoursTimeout timeout
  readCount : ReadHonoursCount count

/-- A number of 16 bits. -/
def FitsUint16 (i : ℤ) : Prop := 0 ≤ i ∧ i < 65536

/-- A process with one `TCPSocket`. -/
def newTcp (blocking : Bool) : Process := (tcpSocketCT .start 0 [.boolean blocking] true).1

/-- A process with one `UDPSocket`, on descriptor 3. -/
def newUdp : Process where
  objs := Function.update (fun _ => .unborn) 0 (.live (.udpSocket (some ⟨.void, .void, 3, 0⟩)))
  registry := ∅
  log := [.socket 0 3]

/-- Everything that `connect` asks for is granted, with this answer of `connect(2)`. -/
def connectGranted (reply : ConnectReply) : ConnectReplies where
  strayPort := 0
  strayTimeout := 0
  inetAddr := 1
  lookup := none
  socket := 3
  getfl := true
  setfl := true
  connect := reply
  mem := true

/-! ### Ports -/

section Ports

variable {i : ℤ}

/-- A conversion to 16 bits keeps the numbers of 16 bits, and no others. -/
theorem toUint16_eq_iff : (toUint16 i : ℤ) = i ↔ FitsUint16 i := by
  unfold toUint16 FitsUint16
  omega

/-- `connect` honours the ports of 16 bits. -/
theorem connectHonoursPort_iff : ConnectHonoursPort i ↔ FitsUint16 i := by
  rw [← toUint16_eq_iff]
  constructor
  · intro h
    obtain ⟨ip, port, hdest, hport⟩ := h (newTcp true) 0 (.string (asciiString "1")) []
      (connectGranted .done) rfl
    have hused : destinations (tcpSocketConnect (newTcp true) 0
        [.string (asciiString "1"), .int i] (connectGranted .done)).1.log =
        [(1, toUint16 i)] := rfl
    rw [hused] at hdest
    cases hdest
    exact hport
  · intro hi p obj peer rest r hok
    rcases tcpSocketConnect_destination p obj (peer :: .int i :: rest) r with
      ⟨ip, port, timeout, htarget, hdest⟩ | ⟨-, hfail⟩
    · obtain ⟨peer', portArg, rest', hargv, -, -, rfl, -⟩ := connectTarget_ok htarget
      cases hargv
      exact ⟨ip, _, hdest, hi⟩
    · rw [hfail] at hok
      cases hok

/-- `send` honours the ports of 16 bits. -/
theorem sendHonoursPort_iff : SendHonoursPort i ↔ FitsUint16 i := by
  rw [← toUint16_eq_iff]
  constructor
  · intro h
    obtain ⟨ip, port, hdest, hport⟩ := h newUdp 0 (.string (asciiString "a"))
      (.string (asciiString "1")) ⟨0, 1, none, 1⟩ rfl
    have hused : destinations (udpSocketSend newUdp 0
        [.string (asciiString "a"), .string (asciiString "1"), .int i] ⟨0, 1, none, 1⟩).1.log =
        [(1, toUint16 i)] := rfl
    rw [hused] at hdest
    cases hdest
    exact hport
  · intro hi p obj data peer r hok
    rcases udpSocketSend_destination p obj [data, peer, .int i] r with
      ⟨text, ip, port, htarget, hdest⟩ | ⟨-, hfail⟩
    · obtain ⟨peer', portArg, hargv, -, -, rfl⟩ := sendTarget_ok htarget
      cases hargv
      exact ⟨ip, _, hdest, hi⟩
    · rw [hfail] at hok
      cases hok

end Ports

/-! ### The timeout -/

section Timeouts

variable {i : ℤ}

/-- Milliseconds from 0 on are stored as they are. -/
theorem addTimeout_isTimeout (h : -1 ≤ i) : (addTimeout i).IsTimeout i := by
  unfold addTimeout
  split_ifs with hnone
  · exact .inl rfl
  · right
    have hnn : 0 ≤ i := by omega
    rw [Int.tdiv_eq_ediv_of_nonneg hnn, Int.tmod_eq_emod_of_nonneg hnn]
    unfold Timespec.Normalised Timespec.ns NS_PER_SEC
    dsimp only
    omega

/-- Below -1 the seconds or the nanoseconds are negative. -/
theorem addTimeout_not_isTimeout (h : i < -1) : ¬(addTimeout i).IsTimeout i := by
  obtain ⟨n, rfl⟩ : ∃ n, i = -n := ⟨-i, by omega⟩
  unfold addTimeout
  rw [if_neg (by omega), Int.neg_tdiv, Int.neg_tmod, Int.tdiv_eq_ediv_of_nonneg (by omega),
    Int.tmod_eq_emod_of_nonneg (by omega)]
  rintro (hnone | ⟨⟨hsec, hnsec, -⟩, -⟩)
  · obtain ⟨-, hnsec⟩ := Timespec.mk.inj hnone
    omega
  · dsimp only at hsec hnsec
    omega

/-- An int of 31 bits gets to `ps_AddSelect` as it is. -/
theorem throughUint32_eq (hlo : -(2 ^ 30) < i) (hhi : i < 2 ^ 30) : throughUint32 i = i :=
  Int.bmod_eq_of_le (by omega) (by omega)

/-- `connect` honours the timeouts from -1 on. -/
theorem connectHonoursTimeout_iff (hlo : -(2 ^ 30) < i) (hhi : i < 2 ^ 30) :
    ConnectHonoursTimeout i ↔ -1 ≤ i := by
  constructor
  · intro h
    obtain ⟨ev, hev, htimeout⟩ := h (newTcp false) 0 (.string (asciiString "1")) (.int 80)
      (connectGranted .inProgress) ⟨false, .void, .void, .void, .void, 3, .connecting⟩ rfl rfl rfl
    have hstored : (tcpSocketConnect (newTcp false) 0 [.string (asciiString "1"), .int 80, .int i]
        (connectGranted .inProgress)).1.registry.lookup 3 =
        some (connectEvent 0 (throughUint32 i)) := rfl
    rw [hstored, throughUint32_eq hlo hhi] at hev
    cases hev
    by_contra hneg
    exact addTimeout_not_isTimeout (by omega) htimeout
  · intro hi p obj peer port r tcp hok htcp hst
    obtain ⟨old, -, hold, htarget, -⟩ := tcpSocketConnect_ok hok
    cases htarget' : connectTarget r [peer, port, .int i] with
    | error e =>
        rw [htarget'] at htarget
        cases htarget
    | ok target =>
        obtain ⟨ip, port', timeout⟩ := target
        obtain ⟨peer', portArg, rest, hargv, -, -, -, rfl⟩ := connectTarget_ok htarget'
        cases hargv
        have hleaves : ConnectLeaves (p.asked obj old r.socket) obj (old.asked r.socket)
            (connectEnd old.blocking r) (connectTimeout r [.int i]) r.mem
            (tcpSocketConnectTo p obj old ip port' (connectTimeout r [.int i]) r) :=
          tcpSocketConnectTo_leaves
        rw [tcpSocketConnect_of_target hold htarget'] at hok htcp ⊢
        have hobj := congrFun hleaves.objs obj
        rw [Process.objs_of_tcp? htcp, Function.update_self] at hobj
        cases hobj
        rcases hleaves.ok.1 hok with hdone | ⟨hwait, hmem⟩
        · rw [hdone] at hst
          cases hst
        · rw [hleaves.registry, if_pos ⟨hwait, hmem⟩]
          refine ⟨_, AList.lookup_insert _, ?_⟩
          show (addTimeout (throughUint32 i)).IsTimeout i
          rw [throughUint32_eq hlo hhi]
          exact addTimeout_isTimeout hi

end Timeouts

/-! ### The count -/

section Counts

variable {p : Process} {obj : ObjId} {fd i : ℤ} {count nread : ℕ} {data : JSString}
  {replies : List RecvReply} {q : Process × Native}

/-- A round of a loop that returns a value: it is the last one, at the end of the stream, or
it goes on with what was received. -/
theorem readLoop_cons {r : RecvReply} (hdone : nread ≠ count)
    (hq : readLoop p obj fd count nread data (r :: replies) = some q) (hok : q.2.isOk = true) :
    r = .bytes [] ∧ replies = [] ∨
      r.length ≤ readLength count nread ∧
        ∃ p' data', readLoop p' obj fd count (nread + r.length) data' replies = some q := by
  rw [readLoop, if_neg hdone] at hq
  dsimp only at hq
  -- the answer of `recv`, or an error where the descriptor is not the object's
  have hlen : (if p.answer fd true then r else .error).length ≤ readLength count nread := by
    by_contra hlong
    rw [if_pos (Nat.lt_of_not_le hlong)] at hq
    cases hq
  rw [if_neg (Nat.not_lt.2 hlen)] at hq
  by_cases hans : p.answer fd true = true
  · rw [if_pos hans] at hq hlen
    cases r with
    | error =>
        obtain ⟨-, hq⟩ := Option.ite_none_right_eq_some.1 hq
        cases hq
        cases hok
    | bytes bytes =>
        cases bytes with
        | nil => exact .inl ⟨rfl, (Option.ite_none_right_eq_some.1 hq).1⟩
        | cons b bs =>
            rw [readRound] at hq
            cases hs : inflateString (b :: bs) with
            | none =>
                rw [hs] at hq
                cases hq
            | some s =>
                rw [hs] at hq
                exact .inr ⟨hlen, _, _, hq⟩
  · rw [if_neg hans] at hq
    obtain ⟨-, hq⟩ := Option.ite_none_right_eq_some.1 hq
    cases hq
    cases hok

/-- A loop that returns a value has read up to the count, or to the end of the stream. -/
theorem readLoop_total (hle : nread ≤ count)
    (hq : readLoop p obj fd count nread data replies = some q) (hok : q.2.isOk = true) :
    nread + totalLength replies ≤ count ∧
      (nread + totalLength replies = count ∨ replies.getLast? = some (.bytes [])) := by
  induction replies generalizing p nread data with
  | nil =>
      rw [readLoop] at hq
      split_ifs at hq with hdone
      exact ⟨by simpa [totalLength] using hle, .inl hdone⟩
  | cons r replies ih =>
      by_cases hdone : nread = count
      · rw [readLoop, if_pos hdone] at hq
        cases hq
      · rcases readLoop_cons hdone hq hok with ⟨rfl, rfl⟩ | ⟨hlen, p', data', hq'⟩
        · exact ⟨by simpa [totalLength, RecvReply.length] using hle, .inr rfl⟩
        · have hfits : nread + r.length ≤ count := by
            unfold readLength at hlen
            split_ifs at hlen <;> omega
          obtain ⟨hle', hend⟩ := ih hfits hq'
          have htotal : totalLength (r :: replies) = r.length + totalLength replies := rfl
          rw [htotal, ← Nat.add_assoc]
          refine ⟨hle', hend.imp_right fun hlast => ?_⟩
          rw [List.getLast?_cons, hlast]
          rfl

variable (p obj fd data) in
/-- One byte after the other, as many as are asked for. -/
theorem readLoop_bytes (hopen : openedBy p.log fd = some obj) (hle : nread ≤ count) :
    ∃ q s, readLoop p obj fd count nread data
      (List.replicate (count - nread) (.bytes [0x61])) = some (q, .ok (.string s)) := by
  obtain ⟨k, hk⟩ : ∃ k, count - nread = k := ⟨_, rfl⟩
  rw [hk]
  induction k generalizing p nread data with
  | zero =>
      obtain rfl : nread = count := by omega
      exact ⟨p, data, if_pos rfl⟩
  | succ k ih =>
      have hlen : [0x61].length ≤ readLength count nread := by
        unfold readLength
        rw [List.length_singleton]
        split_ifs <;> omega
      obtain ⟨q, hq, hloop⟩ := readLoop_chunk data (List.replicate k (.bytes [0x61]))
        (show nread ≠ count by omega) hopen (List.cons_ne_nil 0x61 []) hlen
      have hstep : inflateString [0x61] = some [0x61] := by decide
      rw [hstep] at hloop
      obtain ⟨q', s, hrest⟩ := ih q (data ++ [0x61]) hq
        (show nread + [0x61].length ≤ count by simp; omega) (by simp; omega)
      exact ⟨q', s, hloop.trans hrest⟩

/-- `read` of an int, on a connected socket. -/
theorem tcpSocketRead_int {tcp : TCPSocket} (ht : p.tcp? obj = some tcp)
    (hst : tcp.state = .connected) (rest : List JSVal) (stray : ℤ) :
    tcpSocketRead p obj (.int i :: rest) stray replies =
      readLoop p obj tcp.fd (toUint16 i) 0 [] replies := by
  have hcount : tcpSocketReadCount stray (.int i :: rest) = .ok (toUint16 i) := rfl
  unfold tcpSocketRead
  rw [ht, hcount]
  exact if_neg (not_not.2 hst)

/-- `read` honours the counts of 16 bits. -/
theorem readHonoursCount_iff : ReadHonoursCount i ↔ FitsUint16 i := by
  rw [← toUint16_eq_iff]
  constructor
  · intro h
    -- as many answers of one byte as the code asks for
    obtain ⟨q, s, hq⟩ := readLoop_bytes (connectedOn3 true) 0 3 [] (by rfl)
      (Nat.zero_le (toUint16 i))
    rw [Nat.sub_zero] at hq
    have hconnected : ∃ tcp, (connectedOn3 true).tcp? 0 = some tcp ∧ tcp.state = .connected ∧
        tcp.fd = 3 := ⟨_, rfl, rfl, rfl⟩
    obtain ⟨tcp, htcp, hst, hfd⟩ := hconnected
    rw [← hfd] at hq
    have hread := (tcpSocketRead_int htcp hst [] 0).trans hq
    have htotal : totalLength (List.replicate (toUint16 i) (.bytes [0x61])) = toUint16 i := by
      simp [totalLength, RecvReply.length]
    obtain ⟨-, heq | hlast⟩ := h _ _ _ _ _ _ hread rfl
    · rw [← htotal]
      exact heq
    · have hmem := List.mem_of_getLast? hlast
      cases List.eq_of_mem_replicate hmem
  · intro hi p obj rest stray replies q hq hok
    cases ht : p.tcp? obj with
    | none =>
        unfold tcpSocketRead at hq
        rw [ht] at hq
        cases hq
        cases hok
    | some tcp =>
        by_cases hst : tcp.state = .connected
        · rw [tcpSocketRead_int ht hst] at hq
          obtain ⟨hle, hend⟩ := readLoop_total (Nat.zero_le _) hq hok
          rw [Nat.zero_add] at hle hend
          rw [← hi]
          exact ⟨Int.ofNat_le.2 hle, hend.imp_left (congrArg Int.ofNat)⟩
        · have hcount : tcpSocketReadCount stray (.int i :: rest) = .ok (toUint16 i) := rfl
          unfold tcpSocketRead at hq
          rw [ht, hcount] at hq
          dsimp only at hq
          rw [if_pos hst] at hq
          cases hq
          cases hok

end Counts

/-! ### All of them -/

/-- **The integer arguments are honoured exactly if the port and the count have 16 bits
and the timeout is -1 or more.**  They go through `JSUint16` and `JSUint32`, and a timeout
below -1 becomes one of negative seconds.  Source: `TCPSocket_Connect` (lines 540-582) and
`TCPSocket_Read` (lines 749-778) of `js/src/ext/pstcpsocket.c`, `UDPSocket_Send`
(lines 511-552 of `js/src/ext/psudpsocket.c`) and `ps_AddSelect` (lines 359-366 of
`js/src/ext/psselect.c`). -/
theorem arguments_honoured_iff (port timeout count : JsvalInt) :
    ArgumentsHonoured port timeout count ↔
      FitsUint16 port ∧ -1 ≤ timeout.1 ∧ FitsUint16 count := by
  have htimeout := connectHonoursTimeout_iff timeout.2.1 timeout.2.2
  constructor
  · intro h
    exact ⟨connectHonoursPort_iff.1 h.connectPort, htimeout.1 h.connectTimeout,
      readHonoursCount_iff.1 h.readCount⟩
  · rintro ⟨hport, hms, hcount⟩
    exact ⟨connectHonoursPort_iff.2 hport, sendHonoursPort_iff.2 hport, htimeout.2 hms,
      readHonoursCount_iff.2 hcount⟩

/-- **`connect("1", 65616)` connects to port 80.** -/
theorem port_truncated : ¬∀ port timeout count : JsvalInt,
    ArgumentsHonoured port timeout count := by
  intro hclaim
  have hport := (hclaim ⟨65616, by omega⟩ ⟨0, by omega⟩ ⟨0, by omega⟩).connectPort
  obtain ⟨ip, port, hdest, heq⟩ := hport (newTcp true) 0 (.string (asciiString "1")) []
    (connectGranted .done) rfl
  have hused : destinations (tcpSocketConnect (newTcp true) 0
      [.string (asciiString "1"), .int 65616] (connectGranted .done)).1.log = [(1, 80)] := by decide
  rw [hused] at hdest
  cases hdest
  cases heq

end ProntoScript
