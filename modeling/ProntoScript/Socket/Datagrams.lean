/-
# What becomes of the datagrams a `UDPSocket` takes

`UDPSocket_SelectCallback` (`js/src/ext/psudpsocket.c`, lines 222-275) against the queue
of the kernel.  Before each `recvfrom` more datagrams may arrive, and the call may fail;
otherwise it takes the first datagram, of which it hands over as much as fits in the 256
bytes of the buffer, or finds the queue empty (`serve`).

The callback appends everything it takes in one pass to one string, and calls the handler
once, behind the loop, with the sender of the last datagram; where a later receive fails
it does not call it at all.  So every datagram is delivered by itself and whole exactly
where one is taken, of at most 256 bytes and well formed, before the queue is found empty,
or none before an error (`delivers_each_iff`).
-/

import ProntoScript.Engine.Encoding
import ProntoScript.Socket.Udp

namespace ProntoScript

/-- A datagram with its sender. -/
structure Datagram where
  data : List UInt8
  addr : InAddr
  port : ℕ
deriving DecidableEq

/-- What happens at a receive: the datagrams that arrive before it, and whether it fails. -/
structure ReceiveTurn where
  arrivals : List Datagram
  fails : Bool
deriving DecidableEq

/-- What the kernel does during a receive loop: its answers, the datagrams it takes off
the queue, and whether the last receive failed or found the queue empty. -/
structure Served where
  replies : List RecvfromReply
  taken : List Datagram
  failed : Bool
deriving DecidableEq

/-- The kernel with a queue of datagrams, turn by turn; `none` if the turns end before
the loop does. -/
def serve : List Datagram → List ReceiveTurn → Option Served
  | _, [] => none
  | queue, t :: turns =>
      if t.fails then some ⟨[.error], [], true⟩
      else
        match queue ++ t.arrivals with
        | [] => some ⟨[.again], [], false⟩
        | d :: rest => (serve rest turns).map fun s =>
            { s with
              replies := .datagram (d.data.take 256) d.addr d.port :: s.replies
              taken := d :: s.taken }

/-- The call of `onData` that delivers a datagram whole; none where its payload is not
well formed. -/
def Datagram.call (udp : UDPSocket) (d : Datagram) : Option Invocation :=
  (inflateString d.data).map fun s =>
    ⟨.onData, udp.onData, [.string s, .string (asciiString (inetNtoa d.addr)), .int d.port]⟩

/-- The calls of handlers a callback makes. -/
def CallbackExit.calls : CallbackExit → List Invocation
  | .invoke inv => [inv]
  | _ => []

/-- The callback delivers every datagram it takes, each by a call of its own. -/
def DeliversEach (p : Process) (obj : ObjId) (udp : UDPSocket) (s : Served) : Prop :=
  ∃ p' exit calls, udpSocketSelectCallback p obj s.replies = some (p', exit) ∧
    s.taken.mapM (Datagram.call udp) = some calls ∧ exit.calls = calls

/-- What the receive loop gathers of one more datagram. -/
def gather (x : JSString × InAddr × ℕ) (d : Datagram) : Option (JSString × InAddr × ℕ) :=
  (inflateString (d.data.take 256)).map fun s => (x.1 ++ s, d.addr, d.port)

section

variable {p : Process} {obj : ObjId} {udp : UDPSocket} {fd : ℤ} {queue : List Datagram}
  {turns : List ReceiveTurn} {s : Served} {d : Datagram}

variable (obj) in
/-- **The receive loop gathers what is taken**, and reports the error of the last receive
if there is one. -/
theorem receiveLoop_serve {x : JSString × InAddr × ℕ} (hopen : (openedBy p.log fd).isSome = true)
    (hs : serve queue turns = some s) :
    (receiveLoop p obj fd x.1 x.2.1 x.2.2 s.replies).map Prod.snd =
      (s.taken.foldlM gather x).map fun y =>
        if s.failed then .error ⟨.socketError, none⟩ else .ok y := by
  have hopen' : ∀ p : Process, (openedBy p.log fd).isSome = true →
      (openedBy (p.sys (.recvfrom obj fd 256)).log fd).isSome = true := by
    intro p hp
    rwa [Process.sys_log, openedBy_use rfl rfl]
  induction turns generalizing queue p x s with
  | nil => cases hs
  | cons t turns ih =>
      have hanswer : p.answer fd true = true := by
        rw [Process.answer, hopen]
        rfl
      rw [serve] at hs
      split at hs
      · cases hs
        simp [receiveLoop, hanswer]
      · split at hs
        · cases hs
          simp [receiveLoop, hanswer]
        · rename_i d rest hqueue
          obtain ⟨s, hserve, rfl⟩ := Option.map_eq_some_iff.1 hs
          have hlen : ¬256 < (d.data.take 256).length := by
            rw [List.length_take]
            omega
          rw [receiveLoop]
          simp only [hanswer, if_true, if_neg hlen, List.foldlM_cons, gather]
          cases hdecode : inflateString (d.data.take 256) with
          | none => rfl
          | some text => exact ih (x := (x.1 ++ text, d.addr, d.port)) (hopen' p hopen) hserve

/-- What the callback does with a served queue. -/
theorem udpSocketSelectCallback_serve (hu : p.udp? obj = some udp)
    (hopen : (openedBy p.log udp.fd).isSome = true) (hs : serve queue turns = some s) :
    (udpSocketSelectCallback p obj s.replies).map Prod.snd =
      (s.taken.foldlM gather ([], ⟨0, 0, 0, 0⟩, 0)).map fun y =>
        if s.failed then .reported ⟨.socketError, none⟩
        else .invoke ⟨.onData, udp.onData,
          [.string y.1, .string (asciiString (inetNtoa y.2.1)), .int y.2.2]⟩ := by
  have hloop := receiveLoop_serve obj (x := ([], ⟨0, 0, 0, 0⟩, 0)) hopen hs
  unfold udpSocketSelectCallback
  rw [hu]
  dsimp only at hloop ⊢
  cases hr : receiveLoop p obj udp.fd [] ⟨0, 0, 0, 0⟩ 0 s.replies with
  | none =>
      rw [hr] at hloop
      cases hg : s.taken.foldlM gather ([], ⟨0, 0, 0, 0⟩, 0) with
      | none => rfl
      | some y => rw [hg] at hloop; cases hloop
  | some q =>
      rw [hr] at hloop
      cases hg : s.taken.foldlM gather ([], ⟨0, 0, 0, 0⟩, 0) with
      | none => rw [hg] at hloop; cases hloop
      | some y =>
          rw [hg] at hloop
          obtain ⟨p', out⟩ := q
          cases hfailed : s.failed with
          | true =>
              rw [hfailed] at hloop
              cases hloop
              rfl
          | false =>
              rw [hfailed] at hloop
              cases hloop
              rfl

/-- A payload is whole in the buffer exactly if it fits. -/
theorem inflateString_take (h : inflateString d.data = some t) :
    inflateString (d.data.take 256) = some t ↔ d.data.length ≤ 256 := by
  constructor
  · intro htake
    have hdata : inflateString (d.data.take 256 ++ d.data.drop 256) = some t := by
      rw [List.take_append_drop]
      exact h
    have hnil := eq_nil_of_inflateString_append htake hdata
    exact List.drop_eq_nil_iff.1 hnil
  · intro hlen
    rwa [List.take_of_length_le hlen]

/-- Whether each datagram is delivered, by what the callback does at its end. -/
theorem deliversEach_iff {exit : Option CallbackExit}
    (h : (udpSocketSelectCallback p obj s.replies).map Prod.snd = exit) :
    DeliversEach p obj udp s ↔
      ∃ out, exit = some out ∧ s.taken.mapM (Datagram.call udp) = some out.calls := by
  subst h
  constructor
  · rintro ⟨p', out, calls, hcall, hall, rfl⟩
    exact ⟨out, by rw [hcall]; rfl, hall⟩
  · rintro ⟨out, hexit, hall⟩
    obtain ⟨⟨p', out⟩, hcall, rfl⟩ := Option.map_eq_some_iff.1 hexit
    exact ⟨p', out, _, hcall, hall, rfl⟩

end

/-- **Datagrams are delivered one by one exactly where one is taken by itself**: a single
datagram that fits in the buffer and is well formed, followed by an empty queue; or no
datagram before an error.  The loop takes all that are queued, 256 bytes of each, and puts
them into one string for one call of `onData`.  Source: `UDPSocket_SelectCallback`
(lines 222-275) and `UDPSocket_Invoke` (lines 306-338) of `js/src/ext/psudpsocket.c`. -/
theorem delivers_each_iff (p : Process) (obj : ObjId) (udp : UDPSocket) (queue : List Datagram)
    (turns : List ReceiveTurn) (s : Served) (hu : p.udp? obj = some udp)
    (hopen : (openedBy p.log udp.fd).isSome = true) (hs : serve queue turns = some s) :
    DeliversEach p obj udp s ↔
      s.taken = [] ∧ s.failed = true ∨
      ∃ d, s.taken = [d] ∧ s.failed = false ∧ d.data.length ≤ 256 ∧
        (inflateString d.data).isSome = true := by
  rw [deliversEach_iff (udpSocketSelectCallback_serve hu hopen hs)]
  rcases htaken : s.taken with _ | ⟨d, _ | ⟨d', rest⟩⟩
  · -- nothing taken: a call without a datagram, unless the first receive fails
    cases hfailed : s.failed <;> simp [CallbackExit.calls]
  · simp only [List.foldlM_cons, List.foldlM_nil, List.mapM_cons, List.mapM_nil, gather,
      Datagram.call]
    cases hwhole : inflateString d.data with
    | none => simp [hwhole]
    | some text =>
        have htake := inflateString_take hwhole
        cases hbuffer : inflateString (d.data.take 256) with
        | none =>
            have hlong : ¬d.data.length ≤ 256 := fun hlen => by
              rw [htake.2 hlen] at hbuffer
              cases hbuffer
            simp [hlong]
        | some text' =>
            rw [hbuffer, Option.some.injEq] at htake
            cases hfailed : s.failed with
            | true => simp [CallbackExit.calls]
            | false =>
                constructor
                · rintro ⟨out, hout, hcalls⟩
                  cases hout
                  cases hcalls
                  exact .inr ⟨d, rfl, rfl, htake.1 rfl, by rw [hwhole]; rfl⟩
                · rintro (⟨hnil, -⟩ | ⟨_, ⟨⟩, -, hlen, -⟩)
                  · cases hnil
                  · obtain rfl := htake.2 hlen
                    exact ⟨_, rfl, rfl⟩
  · -- two taken: one call at most
    constructor
    · rintro ⟨out, -, hall⟩
      rw [List.mapM_cons, List.mapM_cons] at hall
      obtain ⟨c, -, hall⟩ := Option.bind_eq_some_iff.1 hall
      obtain ⟨cs, hcs, hcalls⟩ := Option.bind_eq_some_iff.1 hall
      obtain ⟨c', -, hcs⟩ := Option.bind_eq_some_iff.1 hcs
      obtain ⟨cs', -, hcs⟩ := Option.bind_eq_some_iff.1 hcs
      cases hcs
      cases out <;> cases hcalls
    · rintro (⟨hnil, -⟩ | ⟨d'', hone, -⟩)
      · cases hnil
      · cases hone

/-- A process with one `UDPSocket` on descriptor 3, with a handler for data. -/
def udpProcess : Process where
  objs := Function.update (fun _ => .unborn) 0 (.live (.udpSocket (some ⟨.function 1, .void, 3, 0⟩)))
  registry := ∅
  log := [.socket 0 3]

/-- A datagram of one sender, and one of another. -/
def twoDatagrams : List Datagram :=
  [⟨[0x61], ⟨10, 0, 0, 1⟩, 1000⟩, ⟨[0x62], ⟨10, 0, 0, 2⟩, 2000⟩]

/-- One datagram, and another that comes after the queue was found empty. -/
theorem delivers_each_single :
    DeliversEach udpProcess 0 ⟨.function 1, .void, 3, 0⟩
      ⟨[.datagram [0x61] ⟨10, 0, 0, 1⟩ 1000, .again], [⟨[0x61], ⟨10, 0, 0, 1⟩, 1000⟩], false⟩ :=
  (delivers_each_iff udpProcess 0 ⟨.function 1, .void, 3, 0⟩ [⟨[0x61], ⟨10, 0, 0, 1⟩, 1000⟩]
    [⟨[], false⟩, ⟨[], false⟩, ⟨twoDatagrams, false⟩] _ rfl rfl rfl).2
    (.inr ⟨_, rfl, rfl, by decide, by decide⟩)

/-- **Two datagrams are delivered as one**, as if both came from the second sender. -/
theorem datagrams_merged : ¬∀ p obj udp queue turns s, p.udp? obj = some udp →
    (openedBy p.log udp.fd).isSome = true → serve queue turns = some s →
    DeliversEach p obj udp s := by
  intro hclaim
  obtain ⟨p', exit, calls, hcall, hall, heq⟩ := hclaim udpProcess 0 ⟨.function 1, .void, 3, 0⟩
    twoDatagrams [⟨[], false⟩, ⟨[], false⟩, ⟨[], false⟩] _ rfl rfl rfl
  cases hcall
  cases hall
  revert heq
  decide

end ProntoScript
