/-
# Reading a stream

What the peer of a connected, non-blocking `TCPSocket` sends arrives in the
kernel's receive queue in deliveries of any size, also between two calls of `recv`
of one `read`.  So here `read` is not one step: `Stream` is the queue, the peer's
shutdown and the `read` in progress, and each `recv` of its loop is a step of its
own.  The select callback peeks at the queue and calls `onData` or `onClose`; a
script may call `read` whenever no other is in progress.

`read` asks for more until it has all it was asked for, and on a non-blocking socket
a `recv` that finds the queue empty fails: then the bytes of the rounds before are
gone.  Where every `recv` finds a byte or the peer's shutdown (`FindsData`), no byte
is lost (`reads_lossless`).  The rounds are those of the functions they are taken
from (`reads_refine`, `wakeup_refine`).
-/

import ProntoScript.Foundation.Transition
import ProntoScript.Socket.Methods

namespace ProntoScript

open Transition (Run Guarded Keeping)

/-- The bytes of an answer of `recv`. -/
def RecvReply.data : RecvReply → List UInt8
  | .error => []
  | .bytes data => data

/-- A `read` in progress: its arguments, what it has, and what `recv` answered. -/
structure Reading where
  argv : List JSVal
  stray : ℤ
  count : ℕ
  nread : ℕ
  data : JSString
  replies : List RecvReply
deriving DecidableEq

/-- A `read` that returned. -/
structure ReadCall where
  argv : List JSVal
  stray : ℤ
  replies : List RecvReply
  result : Native
deriving DecidableEq

/-- The connection as the socket sees it.  `arrived` and `taken` remember all bytes
that came into the queue and all that left it, `reads` the calls of `read` and
`calls` those of the handlers, the latest first. -/
structure Stream where
  queue : List UInt8
  shut : Bool
  arrived : List UInt8
  taken : List UInt8
  reading : Option Reading
  reads : List ReadCall
  calls : List Handler
deriving DecidableEq

/-- What can happen to it. -/
inductive StreamLabel
  | deliver (bytes : List UInt8)
  | shutdown
  | wakeup
  | read (argv : List JSVal) (stray : ℤ)
  | recv (k : ℕ)
deriving DecidableEq

namespace Stream

/-- The connection is established. -/
def start : Stream := ⟨[], false, [], [], none, [], []⟩

/-- A script may read: no other `read` is in progress, and `onClose` was not called. -/
def idle (s : Stream) : Bool := s.reading.isNone && decide (.onClose ∉ s.calls)

/-- `recv(fd, &dummy, 1, MSG_PEEK)`. -/
def peek (s : Stream) : PeekReply :=
  match s.queue with
  | [] => if s.shut then .closed else .failed
  | _ :: _ => .ready

/-- `recv` for at most `len` bytes: of what is queued at least one byte, `k` of them;
nothing if the peer has shut down, and an error (`EAGAIN`) if it has not. -/
def answer (s : Stream) (len k : ℕ) : Option RecvReply :=
  match s.queue with
  | [] => some (if s.shut then .bytes [] else .error)
  | _ :: _ =>
      if 0 < k ∧ k ≤ len ∧ k ≤ s.queue.length then some (.bytes (s.queue.take k)) else none

/-- `read` returns. -/
def finish (s : Stream) (rd : Reading) (result : Native) : Stream :=
  { s with reading := none, reads := ⟨rd.argv, rd.stray, rd.replies, result⟩ :: s.reads }

/-- The test of the loop of `read`. -/
def loop (s : Stream) (rd : Reading) : Stream :=
  if rd.nread = rd.count then s.finish rd (.ok (.string rd.data)) else { s with reading := some rd }

/-- `recv` took its answer out of the queue. -/
def drain (s : Stream) (reply : RecvReply) : Stream :=
  { s with queue := s.queue.drop reply.length, taken := s.taken ++ reply.data }

/-- The next step.  The peer sends bytes below 0x80, and none after its shutdown; the
callback is called when there is something to read. -/
def step (s : Stream) : StreamLabel → Option Stream
  | .deliver bytes =>
      if s.shut = false ∧ bytes.all (fun b => b < 0x80) then
        some { s with queue := s.queue ++ bytes, arrived := s.arrived ++ bytes }
      else none
  | .shutdown => if s.shut = false then some { s with shut := true } else none
  | .wakeup =>
      if s.idle then
        match s.peek with
        | .ready => some { s with calls := .onData :: s.calls }
        | .closed => some { s with calls := .onClose :: s.calls }
        | .failed => none
      else none
  | .read argv stray =>
      if s.idle then
        match tcpSocketReadCount stray argv with
        | .error e => some { s with reads := ⟨argv, stray, [], .error e⟩ :: s.reads }
        | .ok count => some (s.loop ⟨argv, stray, count, 0, [], []⟩)
      else none
  | .recv k =>
      match s.reading with
      | none => none
      | some rd =>
          match s.answer (readLength rd.count rd.nread) k with
          | none => none
          | some reply =>
              match readRound rd.nread rd.data reply with
              | none => none
              | some (.again nread data) =>
                  some ((s.drain reply).loop
                    { rd with nread := nread, data := data, replies := rd.replies ++ [reply] })
              | some (.done result) =>
                  some ((s.drain reply).finish { rd with replies := rd.replies ++ [reply] } result)

/-- The steps as a relation. -/
def Step (s : Stream) (l : StreamLabel) (t : Stream) : Prop := s.step l = some t

end Stream

/-- The string `read` returned; none where it failed. -/
def ReadCall.value (call : ReadCall) : JSString :=
  match call.result with
  | .ok (.string s) => s
  | _ => []

/-- The values all calls returned, one after the other. -/
def returnedBy : List ReadCall → JSString
  | [] => []
  | call :: earlier => returnedBy earlier ++ call.value

/-- Bytes below 0x80 as a string. -/
def asciiDecode (bytes : List UInt8) : JSString := bytes.map UInt8.toUInt16

namespace Stream

/-- What the `read` in progress has. -/
def partly (s : Stream) : JSString := (s.reading.map Reading.data).getD []

/-- What arrived was taken or is queued, and after `onClose` nothing is. -/
structure Sound (s : Stream) : Prop where
  arrived : s.arrived = s.taken ++ s.queue
  ascii : ∀ b ∈ s.arrived, b < 0x80
  closed : .onClose ∈ s.calls → s.queue = [] ∧ s.shut = true ∧ s.reading = none

/-- **No byte taken out of the queue is lost**: the values that were returned, and what
the `read` in progress has, are what was taken; and no `read` failed in `recv`. -/
structure Lossless (s : Stream) : Prop where
  kept : returnedBy s.reads ++ s.partly = asciiDecode s.taken
  succeeds : ∀ call ∈ s.reads, call.result ≠ reportError .socketError none

/-- Every `recv` of `read` finds a byte in the queue or the peer's shutdown. -/
def FindsData (s : Stream) : StreamLabel → Prop
  | .recv _ => s.queue ≠ [] ∨ s.shut = true
  | _ => True

variable {s t : Stream} {l : StreamLabel} {rd : Reading} {reply : RecvReply} {k : ℕ}

/-! ### What each step does -/

/-- Nothing is being read and the connection is not known to be closed. -/
theorem idle_iff : s.idle = true ↔ s.reading = none ∧ .onClose ∉ s.calls := by
  rw [idle, Bool.and_eq_true, Option.isNone_iff_eq_none, decide_eq_true_iff]

/-- **Bytes arrive** at the end of the queue, as long as the peer has not shut down. -/
theorem step_deliver {bytes : List UInt8} (h : Step s (.deliver bytes) t) :
    s.shut = false ∧ (∀ b ∈ bytes, b < 0x80) ∧
      t = { s with queue := s.queue ++ bytes, arrived := s.arrived ++ bytes } := by
  dsimp only [Step, step] at h
  split_ifs at h with hok
  refine ⟨hok.1, fun b hb => ?_, (Option.some.inj h).symm⟩
  exact decide_eq_true_iff.1 (List.all_eq_true.1 hok.2 b hb)

/-- **The peer shuts down** once. -/
theorem step_shutdown (h : Step s .shutdown t) : s.shut = false ∧ t = { s with shut := true } := by
  dsimp only [Step, step] at h
  split_ifs at h with hshut
  exact ⟨hshut, (Option.some.inj h).symm⟩

/-- The callback calls `onData`, or `onClose` once there is nothing left. -/
theorem step_wakeup (h : Step s .wakeup t) : s.idle = true ∧
    ((s.peek = .ready ∧ t = { s with calls := .onData :: s.calls }) ∨
      s.peek = .closed ∧ t = { s with calls := .onClose :: s.calls }) := by
  dsimp only [Step, step] at h
  split_ifs at h with hi
  refine ⟨hi, ?_⟩
  split at h
  · exact Or.inl ⟨‹_›, (Option.some.inj h).symm⟩
  · exact Or.inr ⟨‹_›, (Option.some.inj h).symm⟩
  · cases h

/-- `read` fails in its arguments, or starts its loop. -/
theorem step_read {argv : List JSVal} {stray : ℤ} (h : Step s (.read argv stray) t) :
    s.idle = true ∧
      ((∃ e, tcpSocketReadCount stray argv = .error e ∧
        t = { s with reads := ⟨argv, stray, [], .error e⟩ :: s.reads }) ∨
      ∃ count, tcpSocketReadCount stray argv = .ok count ∧
        t = s.loop ⟨argv, stray, count, 0, [], []⟩) := by
  dsimp only [Step, step] at h
  split_ifs at h with hi
  refine ⟨hi, ?_⟩
  split at h
  · rename_i e hcount
    exact Or.inl ⟨e, hcount, (Option.some.inj h).symm⟩
  · rename_i count hcount
    exact Or.inr ⟨count, hcount, (Option.some.inj h).symm⟩

/-- The cases of a step of `recv`. -/
theorem step_recv (h : Step s (.recv k) t) :
    ∃ rd reply, s.reading = some rd ∧ s.answer (readLength rd.count rd.nread) k = some reply ∧
      ((∃ nread data, readRound rd.nread rd.data reply = some (.again nread data) ∧
        t = (s.drain reply).loop
          { rd with nread := nread, data := data, replies := rd.replies ++ [reply] }) ∨
      ∃ result, readRound rd.nread rd.data reply = some (.done result) ∧
        t = (s.drain reply).finish { rd with replies := rd.replies ++ [reply] } result) := by
  dsimp only [Step, step] at h
  split at h
  · cases h
  · rename_i rd hrd
    split at h
    · cases h
    · rename_i reply hreply
      split at h
      · cases h
      · rename_i nread data hround
        exact ⟨rd, reply, hrd, hreply, Or.inl ⟨nread, data, hround, (Option.some.inj h).symm⟩⟩
      · rename_i result hround
        exact ⟨rd, reply, hrd, hreply, Or.inr ⟨result, hround, (Option.some.inj h).symm⟩⟩

/-- The peek finds the peer's shutdown once everything before it was taken. -/
theorem peek_closed (h : s.peek = .closed) : s.queue = [] ∧ s.shut = true := by
  unfold peek at h
  split at h
  · rename_i hq
    split_ifs at h with hshut
    exact ⟨hq, hshut⟩
  · cases h

/-- What `recv` answers: the first bytes of the queue, or that there are none. -/
theorem answer_cases {len : ℕ} (h : s.answer len k = some reply) :
    (s.queue = [] ∧ s.shut = false ∧ reply = .error) ∨
      (s.queue = [] ∧ s.shut = true ∧ reply = .bytes []) ∨
      ∃ b bs, reply = .bytes (b :: bs) ∧ reply.length ≤ len ∧
        s.queue = (b :: bs) ++ s.queue.drop reply.length := by
  unfold answer at h
  split at h
  · rename_i hq
    obtain rfl := Option.some.inj h
    cases hshut : s.shut with
    | false => exact Or.inl ⟨hq, rfl, rfl⟩
    | true => exact Or.inr (Or.inl ⟨hq, rfl, rfl⟩)
  · rename_i c cs hq
    split_ifs at h with hk
    obtain rfl := Option.some.inj h
    obtain ⟨hpos, hlen, hle⟩ := hk
    have hlength : (s.queue.take k).length = k := List.length_take_of_le hle
    have hsplit : s.queue = s.queue.take k ++ s.queue.drop k := (List.take_append_drop k _).symm
    refine Or.inr (Or.inr ?_)
    cases htake : s.queue.take k with
    | nil =>
        rw [htake] at hlength
        simp only [List.length_nil] at hlength
        omega
    | cons b bs =>
        rw [htake] at hlength hsplit
        refine ⟨b, bs, rfl, ?_, ?_⟩
        · rw [RecvReply.length, hlength]
          exact hlen
        · rw [RecvReply.length, hlength]
          exact hsplit

/-- Whatever the answer, it comes from the front of the queue. -/
theorem queue_of_answer {len : ℕ} (h : s.answer len k = some reply) :
    s.queue = reply.data ++ s.queue.drop reply.length ∧ reply.length ≤ len := by
  rcases answer_cases h with ⟨hq, -, rfl⟩ | ⟨hq, -, rfl⟩ | ⟨b, bs, rfl, hlen, hq⟩
  · rw [hq]
    exact ⟨rfl, Nat.zero_le _⟩
  · rw [hq]
    exact ⟨rfl, Nat.zero_le _⟩
  · exact ⟨hq, hlen⟩

section Fields

variable (s rd)

@[simp] theorem loop_queue : (s.loop rd).queue = s.queue := by unfold loop; split_ifs <;> rfl
@[simp] theorem loop_arrived : (s.loop rd).arrived = s.arrived := by unfold loop; split_ifs <;> rfl
@[simp] theorem loop_taken : (s.loop rd).taken = s.taken := by unfold loop; split_ifs <;> rfl
@[simp] theorem loop_calls : (s.loop rd).calls = s.calls := by unfold loop; split_ifs <;> rfl

/-- Whether the loop goes on or not, the stream returned what it had and the `read`
in progress has its data. -/
theorem loop_returned :
    returnedBy (s.loop rd).reads ++ (s.loop rd).partly = returnedBy s.reads ++ rd.data := by
  unfold loop
  split_ifs
  · show returnedBy s.reads ++ rd.data ++ [] = _
    rw [List.append_nil]
  · rfl

/-- The loop adds no failure. -/
theorem loop_succeeds (h : ∀ call ∈ s.reads, call.result ≠ reportError .socketError none) :
    ∀ call ∈ (s.loop rd).reads, call.result ≠ reportError .socketError none := by
  unfold loop
  split_ifs
  · intro call hcall
    rcases List.mem_cons.1 hcall with rfl | hcall
    · rintro ⟨⟩
    · exact h call hcall
  · exact h

end Fields

/-! ### The steps -/

/-- **Every step keeps the stream sound.** -/
theorem step_sound (h : s.Sound) (hs : Step s l t) : t.Sound := by
  cases l with
  | deliver bytes =>
      obtain ⟨hshut, hascii, rfl⟩ := step_deliver hs
      refine ⟨?_, fun b hb => ?_, fun hc => ?_⟩
      · show s.arrived ++ bytes = s.taken ++ (s.queue ++ bytes)
        rw [h.arrived, List.append_assoc]
      · rcases List.mem_append.1 hb with hb | hb
        · exact h.ascii b hb
        · exact hascii b hb
      · -- after `onClose` the peer sends nothing
        cases hshut.symm.trans (h.closed hc).2.1
  | shutdown =>
      obtain ⟨-, rfl⟩ := step_shutdown hs
      exact ⟨h.arrived, h.ascii, fun hc => ⟨(h.closed hc).1, rfl, (h.closed hc).2.2⟩⟩
  | wakeup =>
      obtain ⟨hi, ⟨-, rfl⟩ | ⟨hpeek, rfl⟩⟩ := step_wakeup hs
      · refine ⟨h.arrived, h.ascii, fun hc => ?_⟩
        rcases List.mem_cons.1 hc with hc | hc
        · cases hc
        · exact absurd hc (idle_iff.1 hi).2
      · obtain ⟨hq, hshut⟩ := peek_closed hpeek
        exact ⟨h.arrived, h.ascii, fun _ => ⟨hq, hshut, (idle_iff.1 hi).1⟩⟩
  | read argv stray =>
      obtain ⟨hi, ⟨e, -, rfl⟩ | ⟨count, -, rfl⟩⟩ := step_read hs
      · exact ⟨h.arrived, h.ascii, h.closed⟩
      · refine ⟨?_, ?_, fun hc => ?_⟩
        · rw [loop_arrived, loop_taken, loop_queue]
          exact h.arrived
        · rw [loop_arrived]
          exact h.ascii
        · rw [loop_calls] at hc
          exact absurd hc (idle_iff.1 hi).2
  | recv k =>
      obtain ⟨rd, reply, hrd, hreply, hround⟩ := step_recv hs
      have hdrained : s.arrived = s.taken ++ reply.data ++ s.queue.drop reply.length := by
        rw [List.append_assoc, ← (queue_of_answer hreply).1]
        exact h.arrived
      have hopen : .onClose ∉ s.calls := by
        intro hc
        rw [(h.closed hc).2.2] at hrd
        cases hrd
      rcases hround with ⟨nread, data, -, rfl⟩ | ⟨result, -, rfl⟩
      · refine ⟨?_, ?_, fun hc => ?_⟩
        · rw [loop_arrived, loop_taken, loop_queue]
          exact hdrained
        · rw [loop_arrived]
          exact h.ascii
        · rw [loop_calls] at hc
          exact absurd hc hopen
      · exact ⟨hdrained, h.ascii, fun hc => absurd hc hopen⟩

/-- An argument that is no number is reported as no string. -/
theorem tcpSocketReadCount_error {stray : ℤ} {argv : List JSVal} {e : Option ErrorReport}
    (h : tcpSocketReadCount stray argv = .error e) : e = some ⟨.argumentNotString, none⟩ := by
  unfold tcpSocketReadCount at h
  split at h
  · cases h
  · split_ifs at h
    cases h
    rfl

/-- A call of `read` that is refused, or that begins, loses nothing. -/
theorem read_lossless {argv : List JSVal} {stray : ℤ} (hl : s.Lossless)
    (hs : Step s (.read argv stray) t) : t.Lossless := by
  obtain ⟨hi, hread⟩ := step_read hs
  have hnone := (idle_iff.1 hi).1
  have hkept := hl.kept
  rw [partly, hnone, Option.map_none, Option.getD_none] at hkept
  rcases hread with ⟨e, hcount, rfl⟩ | ⟨count, -, rfl⟩
  · refine ⟨?_, fun call hcall => ?_⟩
    · show returnedBy s.reads ++ [] ++ ((s.reading.map Reading.data).getD []) = _
      rw [hnone, List.append_nil]
      exact hkept
    · rcases List.mem_cons.1 hcall with rfl | hcall
      · rw [tcpSocketReadCount_error hcount]
        rintro ⟨⟩
      · exact hl.succeeds call hcall
  · refine ⟨?_, loop_succeeds _ _ hl.succeeds⟩
    rw [loop_returned, loop_taken]
    exact hkept

/-- A round of the loop loses something exactly if nothing is queued for it and the peer has
not shut down. -/
theorem recv_lossless_iff {k : ℕ} (h : s.Sound) (hl : s.Lossless) (hs : Step s (.recv k) t) :
    t.Lossless ↔ FindsData s (.recv k) := by
  obtain ⟨rd, reply, hrd, hreply, hround⟩ := step_recv hs
  have hkept := hl.kept
  rw [partly, hrd, Option.map_some, Option.getD_some] at hkept
  rcases answer_cases hreply with ⟨hq, hshut, rfl⟩ | ⟨hq, hshut, rfl⟩ | ⟨b, bs, rfl, -, hq⟩
  · -- nothing is queued: the read fails
    refine iff_of_false (fun hl' => ?_) (by simp [FindsData, hq, hshut])
    rcases hround with ⟨nread, data, hround, -⟩ | ⟨result, hround, rfl⟩
    · cases hround
    · cases hround
      exact hl'.succeeds _ List.mem_cons_self rfl
  · -- the peer has shut down: the read returns what it has
    refine iff_of_true ?_ (Or.inr hshut)
    rcases hround with ⟨nread, data, hround, -⟩ | ⟨result, hround, rfl⟩
    · cases hround
    · cases hround
      refine ⟨?_, fun call hcall => ?_⟩
      · show returnedBy s.reads ++ rd.data ++ [] = asciiDecode (s.taken ++ [])
        rw [List.append_nil, List.append_nil]
        exact hkept
      · rcases List.mem_cons.1 hcall with rfl | hcall
        · rintro ⟨⟩
        · exact hl.succeeds call hcall
  · -- bytes are queued: they are decoded and appended
    have hascii : ∀ c ∈ b :: bs, c < 0x80 := by
      intro c hc
      refine h.ascii c ?_
      rw [h.arrived, hq]
      exact List.mem_append_right _ (List.mem_append_left _ hc)
    have hdecode : readRound rd.nread rd.data (.bytes (b :: bs)) =
        some (.again (rd.nread + (b :: bs).length) (rd.data ++ asciiDecode (b :: bs))) := by
      show Option.map _ (inflateString (b :: bs)) = _
      rw [inflateString_ascii hascii]
      rfl
    have hne : s.queue ≠ [] := by
      rw [hq]
      rintro ⟨⟩
    refine iff_of_true ?_ (Or.inl hne)
    rcases hround with ⟨nread, data, hround, rfl⟩ | ⟨result, hround, -⟩
    · cases hdecode.symm.trans hround
      refine ⟨?_, loop_succeeds _ _ hl.succeeds⟩
      rw [loop_returned, loop_taken]
      show returnedBy s.reads ++ (rd.data ++ asciiDecode (b :: bs)) =
        asciiDecode (s.taken ++ (b :: bs))
      rw [← List.append_assoc, hkept, asciiDecode, asciiDecode, asciiDecode, List.map_append]
    · cases hdecode.symm.trans hround

/-- **A step loses no byte exactly if it finds data.** -/
theorem step_lossless_iff (h : s.Sound) (hl : s.Lossless) (hs : Step s l t) :
    t.Lossless ↔ FindsData s l := by
  cases l with
  | deliver bytes =>
      obtain ⟨-, -, rfl⟩ := step_deliver hs
      exact iff_of_true ⟨hl.kept, hl.succeeds⟩ trivial
  | shutdown =>
      obtain ⟨-, rfl⟩ := step_shutdown hs
      exact iff_of_true ⟨hl.kept, hl.succeeds⟩ trivial
  | wakeup =>
      obtain ⟨-, ⟨-, rfl⟩ | ⟨-, rfl⟩⟩ := step_wakeup hs
      · exact iff_of_true ⟨hl.kept, hl.succeeds⟩ trivial
      · exact iff_of_true ⟨hl.kept, hl.succeeds⟩ trivial
  | read argv stray => exact iff_of_true (read_lossless hl hs) trivial
  | recv k => exact recv_lossless_iff h hl hs

/-- Nothing has been called. -/
theorem start_sound : start.Sound := ⟨rfl, fun _ hb => (by cases hb), fun hc => (by cases hc)⟩

/-- Nothing has been lost. -/
theorem start_lossless : start.Lossless := ⟨rfl, fun _ hcall => (by cases hcall)⟩

/-- **What a script may rely on**: the values returned so far are a prefix of what the
peer sent; while no `read` is in progress they are all that was taken out of the
queue; when `onClose` is called they are all that was sent; and no `read` failed in
`recv`. -/
structure Delivers (s : Stream) : Prop where
  inOrder : returnedBy s.reads <+: asciiDecode s.arrived
  complete : s.reading = none → returnedBy s.reads = asciiDecode s.taken
  atClose : .onClose ∈ s.calls → returnedBy s.reads = asciiDecode s.arrived
  succeeds : ∀ call ∈ s.reads, call.result ≠ reportError .socketError none

/-- Where no byte is lost, the script gets what it may rely on. -/
theorem Lossless.delivers (hl : s.Lossless) (h : s.Sound) : s.Delivers := by
  have hall : s.reading = none → returnedBy s.reads = asciiDecode s.taken := by
    intro hnone
    have hkept := hl.kept
    rwa [partly, hnone, Option.map_none, Option.getD_none, List.append_nil] at hkept
  refine ⟨?_, hall, fun hc => ?_, hl.succeeds⟩
  · have htaken : asciiDecode s.taken <+: asciiDecode s.arrived := by
      rw [h.arrived, asciiDecode, asciiDecode, List.map_append]
      exact List.prefix_append _ _
    refine List.IsPrefix.trans ?_ htaken
    rw [← hl.kept]
    exact List.prefix_append _ _
  · obtain ⟨hq, -, hnone⟩ := h.closed hc
    rw [hall hnone, h.arrived, hq, List.append_nil]

end Stream

/-! ### The rounds are those of `TCPSocket_Read` -/

/-- A round of the receive loop on an open descriptor. -/
theorem readLoop_round {p : Process} {obj : ObjId} {fd : ℤ} {count nread : ℕ} {data : JSString}
    {rest : List RecvReply} (reply : RecvReply) (hne : nread ≠ count)
    (hopen : openedBy p.log fd = some obj) (hlen : reply.length ≤ readLength count nread) :
    readLoop p obj fd count nread data (reply :: rest) =
      match readRound nread data reply with
      | none => none
      | some (.again nread' data') =>
          readLoop (p.sys (.recv obj fd (readLength count nread) false)) obj fd count nread' data'
            rest
      | some (.done result) =>
          if rest = [] then some (p.sys (.recv obj fd (readLength count nread) false), result)
          else none := by
  have hans : p.answer fd true = true := by
    rw [Process.answer, hopen]
    rfl
  rw [readLoop, if_neg hne]
  dsimp only
  rw [hans, if_pos rfl]
  refine (if_neg (Nat.not_lt.2 hlen)).trans ?_
  rcases readRound nread data reply with - | (round | result) <;> rfl

/-- A `read` in progress is one of the code: from any process in which the descriptor is
open, the loop gets to where the `read` is with the same answers of `recv`. -/
def Reading.Runs (rd : Reading) : Prop :=
  tcpSocketReadCount rd.stray rd.argv = .ok rd.count ∧
    ∀ p obj fd, openedBy p.log fd = some obj → ∃ q, openedBy q.log fd = some obj ∧
      ∀ rest, readLoop p obj fd rd.count 0 [] (rd.replies ++ rest) =
        readLoop q obj fd rd.count rd.nread rd.data rest

/-- A `read` that returned is one of the code: called on a connected socket, with the
same answers of `recv`, it returns the same. -/
def ReadCall.Runs (call : ReadCall) : Prop :=
  ∀ p obj tcp, p.tcp? obj = some tcp → tcp.state = .connected →
    openedBy p.log tcp.fd = some obj →
      ∃ q, tcpSocketRead p obj call.argv call.stray call.replies = some q ∧ q.2 = call.result

namespace Stream

/-- The reads of the stream are those of the code. -/
structure Refines (s : Stream) : Prop where
  reads : ∀ call ∈ s.reads, call.Runs
  reading : ∀ rd, s.reading = some rd → rd.nread ≠ rd.count ∧ rd.Runs

variable {s t : Stream} {l : StreamLabel} {rd : Reading} {argv : List JSVal} {stray : ℤ} {count : ℕ}
  {replies : List RecvReply} {result : Native}

/-- What the loop returns, `read` returns. -/
theorem runs_of_readLoop (hcount : tcpSocketReadCount stray argv = .ok count)
    (h : ∀ p obj fd, openedBy p.log fd = some obj →
      ∃ q, readLoop p obj fd count 0 [] replies = some q ∧ q.2 = result) :
    ReadCall.Runs ⟨argv, stray, replies, result⟩ := by
  intro p obj tcp ht hst hopen
  obtain ⟨q, hq, hres⟩ := h p obj tcp.fd hopen
  refine ⟨q, ?_, hres⟩
  unfold tcpSocketRead
  rw [ht, hcount]
  dsimp only
  rw [if_neg (not_not.2 hst), hq]

/-- The test of the loop is that of the code. -/
theorem Refines.loop (h : ∀ call ∈ s.reads, call.Runs) (hrd : rd.Runs) : (s.loop rd).Refines := by
  unfold Stream.loop
  split_ifs with hend
  · refine ⟨fun call hcall => ?_, fun rd' hrd' => by cases hrd'⟩
    rcases List.mem_cons.1 hcall with rfl | hcall
    · refine runs_of_readLoop hrd.1 fun p obj fd hopen => ?_
      obtain ⟨q, -, hq⟩ := hrd.2 p obj fd hopen
      refine ⟨(q, .ok (.string rd.data)), ?_, rfl⟩
      rw [← List.append_nil rd.replies, hq [], readLoop, if_pos hend]
    · exact h call hcall
  · refine ⟨h, fun rd' hrd' => ?_⟩
    obtain rfl := Option.some.inj hrd'
    exact ⟨hend, hrd⟩

/-- Every step keeps it so. -/
theorem step_refines (h : s.Refines) (hs : Step s l t) : t.Refines := by
  cases l with
  | deliver bytes =>
      obtain ⟨-, -, rfl⟩ := step_deliver hs
      exact ⟨h.reads, h.reading⟩
  | shutdown =>
      obtain ⟨-, rfl⟩ := step_shutdown hs
      exact ⟨h.reads, h.reading⟩
  | wakeup =>
      obtain ⟨-, ⟨-, rfl⟩ | ⟨-, rfl⟩⟩ := step_wakeup hs
      · exact ⟨h.reads, h.reading⟩
      · exact ⟨h.reads, h.reading⟩
  | read argv stray =>
      obtain ⟨-, ⟨e, hcount, rfl⟩ | ⟨count, hcount, rfl⟩⟩ := step_read hs
      · refine ⟨fun call hcall => ?_, h.reading⟩
        rcases List.mem_cons.1 hcall with rfl | hcall
        · intro p obj tcp ht hst hopen
          refine ⟨(p, .error e), ?_, rfl⟩
          unfold tcpSocketRead
          rw [ht, hcount]
        · exact h.reads call hcall
      · exact .loop h.reads ⟨hcount, fun p obj fd hopen => ⟨p, hopen, fun rest => rfl⟩⟩
  | recv k =>
      obtain ⟨rd, reply, hrd, hreply, hround⟩ := step_recv hs
      obtain ⟨hne, hcount, hruns⟩ := h.reading rd hrd
      have hlen := (queue_of_answer hreply).2
      have hopened : ∀ (q : Process) obj fd, openedBy q.log fd = some obj → openedBy
          (q.sys (.recv obj fd (readLength rd.count rd.nread) false)).log fd = some obj :=
        fun q obj fd hopen => (openedBy_use rfl rfl).trans hopen
      rcases hround with ⟨nread, data, hround, rfl⟩ | ⟨result, hround, rfl⟩
      · refine .loop h.reads ⟨hcount, fun p obj fd hopen => ?_⟩
        obtain ⟨q, hq, hrest⟩ := hruns p obj fd hopen
        refine ⟨_, hopened q obj fd hq, fun rest => ?_⟩
        show readLoop p obj fd rd.count 0 [] (rd.replies ++ [reply] ++ rest) = _
        rw [List.append_assoc, hrest, List.singleton_append, readLoop_round _ hne hq hlen, hround]
      · refine ⟨fun call hcall => ?_, fun rd' hrd' => by cases hrd'⟩
        rcases List.mem_cons.1 hcall with rfl | hcall
        · refine runs_of_readLoop hcount fun p obj fd hopen => ?_
          obtain ⟨q, hq, hrest⟩ := hruns p obj fd hopen
          refine ⟨(q.sys (.recv obj fd (readLength rd.count rd.nread) false), result), ?_, rfl⟩
          rw [hrest, readLoop_round _ hne hq hlen, hround]
          rfl
        · exact h.reads call hcall

/-- **Every `read` of the stream is one of `TCPSocket_Read`.** -/
theorem reads_refine {ls : List StreamLabel} (hrun : Run Step start ls s) :
    ∀ call ∈ s.reads, call.Runs :=
  (hrun.invariant (P := Refines) (fun _ _ _ h hs => step_refines h hs)
    ⟨fun _ hcall => (by cases hcall), fun _ hrd => (by cases hrd)⟩).reads

/-- **The handlers of the stream are those of `TCPSocket_SelectCallback`**, for the
answer of the peek the queue gives. -/
theorem wakeup_refine {p : Process} {obj : ObjId} {tcp : TCPSocket} {r : TcpCallbackReplies}
    (hs : Step s .wakeup t) (h : Owned p) (ht : p.tcp? obj = some tcp)
    (hb : tcp.blocking = false) (hst : tcp.state = .connected) (hfd : tcp.fd ≠ -1)
    (hpeek : r.peek = s.peek) (hmem : r.mem = true) :
    ∃ inv, (tcpSocketSelectCallback p obj r).2 = .invoke inv ∧
      t.calls = inv.handler :: s.calls := by
  have hstep := tcpSocketSelectCallback_step (r := r) h ht
  generalize tcpSocketSelectCallback p obj r = q at hstep ⊢
  obtain ⟨-, ht'⟩ := step_wakeup hs
  rw [← hpeek] at ht'
  cases hstep with
  | blocking hb' => cases hb.symm.trans hb'
  | unconnected _ hst' => cases hst.symm.trans hst'
  | connected _ hst' => cases hst.symm.trans hst'
  | refused _ hst' => cases hst.symm.trans hst'
  | closed _ _ _ hclosed =>
      rcases ht' with ⟨hready, -⟩ | ⟨-, rfl⟩
      · cases hready.symm.trans hclosed
      · exact ⟨_, rfl, rfl⟩
  | broken _ _ hbroken =>
      have hfailed : r.peek = .failed := hbroken.resolve_left hfd
      rcases ht' with ⟨hready, -⟩ | ⟨hclosed, -⟩
      · cases hready.symm.trans hfailed
      · cases hclosed.symm.trans hfailed
  | data _ _ _ hready =>
      rcases ht' with ⟨-, rfl⟩ | ⟨hclosed, -⟩
      · refine ⟨⟨.onData, tcp.onData, []⟩, ?_, rfl⟩
        rw [tcpSocketRearm, Process.psAddSelect, if_pos hmem]
      · cases hclosed.symm.trans hready

/-! ### No byte is lost -/

/-- **`read` loses no byte in the runs where every `recv` finds data.**  In such a run, at
every moment, the calls of `read` that returned are calls of `TCPSocket_Read` and the
script got what it may rely on; and these are exactly the runs where no byte is lost.  A
`recv` that finds none, on a descriptor that does not block, fails, and the bytes before
it are dropped with the error.  Source: `TCPSocket_Read` (lines 745-822) and the peek in
`TCPSocket_SelectCallback` (lines 319-346) of `js/src/ext/pstcpsocket.c`. -/
theorem reads_lossless (ls : List StreamLabel) (s : Stream) :
    (Run (Guarded FindsData Step) start ls s → s.Delivers ∧ ∀ call ∈ s.reads, call.Runs) ∧
    (Run (Guarded FindsData Step) start ls s ↔ Run (Keeping Lossless Step) start ls s) := by
  have hsound : ∀ s l t, Sound s → Step s l t → Sound t := fun _ _ _ h hs => step_sound h hs
  have hstep : ∀ s l t, Sound s → Lossless s → Step s l t → (Lossless t ↔ FindsData s l) :=
    fun _ _ _ h hl hs => step_lossless_iff h hl hs
  refine ⟨fun hrun => ?_,
    Transition.run_guarded_iff_keeping hsound hstep start_sound start_lossless⟩
  have h : s.Sound := hrun.of_guarded.invariant hsound start_sound
  have hl : s.Lossless := hrun.guarded_invariant hsound
    (fun s l t h hl hg hs => (hstep s l t h hl hs).2 hg) start_sound start_lossless
  exact ⟨hl.delivers h, reads_refine hrun.of_guarded⟩

/-- Running the labels one after the other gives a run. -/
theorem run_of_foldlM {s t : Stream} {ls : List StreamLabel} (h : ls.foldlM step s = some t) :
    Run Step s ls t :=
  Run.of_foldlM h

/-- The peer sends one byte, and the handler calls `read()`: the byte is taken, the next
`recv` finds the queue empty, and the call fails. -/
theorem read_loses_byte : ¬ ∀ ls s, Run Step start ls s → s.Delivers := by
  intro hclaim
  have hrun : ∃ s, Run Step start
      [.deliver [0x61], .wakeup, .read [] 0, .recv 1, .recv 0] s ∧
        s.reading = none ∧ s.taken = [0x61] ∧ returnedBy s.reads = [] :=
    ⟨_, run_of_foldlM rfl, rfl, rfl, rfl⟩
  obtain ⟨s, hrun, hnone, htaken, hret⟩ := hrun
  have hall := (hclaim _ s hrun).complete hnone
  rw [htaken, hret] at hall
  cases hall

/-- The handler reads as much as there is, and the rest when the peer has shut down. -/
theorem reads_lossless_shutdown : ∃ s : Stream, s.calls = [.onClose, .onData, .onData] ∧
    returnedBy s.reads = asciiDecode s.arrived ∧ s.arrived = [0x61, 0x62, 0x63] := by
  have hrun : ∃ s, Run (Guarded FindsData Step) start
      [.deliver [0x61, 0x62], .wakeup, .read [.int 2] 0, .recv 2, .deliver [0x63], .wakeup,
        .read [] 0, .recv 1, .shutdown, .recv 0, .wakeup] s ∧
        s.calls = [.onClose, .onData, .onData] ∧ s.arrived = [0x61, 0x62, 0x63] :=
    ⟨_, .guarded_cons trivial rfl <| .guarded_cons trivial rfl <| .guarded_cons trivial rfl <|
      .guarded_cons (Or.inl (by rintro ⟨⟩)) rfl <| .guarded_cons trivial rfl <|
      .guarded_cons trivial rfl <| .guarded_cons trivial rfl <|
      .guarded_cons (Or.inl (by rintro ⟨⟩)) rfl <| .guarded_cons trivial rfl <|
      .guarded_cons (Or.inr rfl) rfl <| .guarded_cons trivial rfl <| .nil _, rfl, rfl⟩
  obtain ⟨s, hrun, hcalls, harrived⟩ := hrun
  have hclose : .onClose ∈ s.calls := by
    rw [hcalls]
    exact List.mem_cons_self
  exact ⟨s, hcalls, ((reads_lossless _ s).1 hrun).1.atClose hclose, harrived⟩

end Stream
end ProntoScript
