/-
# The arithmetic of the receive loop

`js/src/ext/pstcpsocket.c`, lines 789-821, with the types of its variables: `count` is a
`JSUint16`, `nread` and `buflen` are of type `ssize_t`, and `sizeof(buf)` and the third
argument of `recv` of type `size_t`, 64 bits wide.  So `(count - nread) < sizeof(buf)`
compares unsigned numbers.

As long as `nread` stays between 0 and `count` the difference is not negative and nothing
wraps (`askLength_eq`), and since `recv` returns at most what it was asked for and the loop
stops at 0, `nread` stays there and grows with every round (`ReadRun.Sound`).  The loop is
that of `readLoop` (`recvLoop_readLoop`).
-/

import Mathlib.Data.Int.Init
import ProntoScript.Socket.Transfer

namespace ProntoScript

/-- An integer as an `ssize_t`. -/
def toSsize (x : ℤ) : ℤ := Int.bmod x (2 ^ 64)

/-- An `ssize_t` as a `size_t`. -/
def toSize (x : ℤ) : ℕ := (x % 2 ^ 64).toNat

/-- `js_ConcatStrings`, with the memory for the result: an empty operand is not copied. -/
def jsConcatStrings (left right : JSString) : JSString :=
  if right.length = 0 then left
  else if left.length = 0 then right
  else left ++ right

@[simp] theorem jsConcatStrings_eq (left right : JSString) :
    jsConcatStrings left right = left ++ right := by
  unfold jsConcatStrings
  split_ifs with hr hl
  · rw [List.length_eq_zero_iff.1 hr, List.append_nil]
  · rw [List.length_eq_zero_iff.1 hl, List.nil_append]
  · rfl

/-- What `recv` returns, call after call, for the length it is asked for: -1, or at most
that many bytes. -/
structure RecvAnswers where
  recv : ℕ → ℕ → RecvReply
  bounded (k len : ℕ) : (recv k len).length ≤ len

/-- A call of `recv`: the value of `nread` before it, the length, and the answer. -/
structure Receive where
  nread : ℤ
  asked : ℕ
  reply : RecvReply
deriving DecidableEq

/-- How the loop ends; at a null string `js_ConcatStrings` dereferences it. -/
inductive ReadReturn
  | value (data : JSString)
  | socketError
  | nullString
deriving DecidableEq

/-- The calls of `recv` a loop makes, the last value of `nread`, and how it ends. -/
structure ReadRun where
  receives : List Receive
  nread : ℤ
  result : ReadReturn
deriving DecidableEq

namespace ReadRun

/-- The run with a call of `recv` before it. -/
def after (r : Receive) (run : ReadRun) : ReadRun := { run with receives := r :: run.receives }

/-- The bytes received, in order. -/
def received (run : ReadRun) : List UInt8 := run.receives.flatMap fun r => r.reply.data

end ReadRun

/-- `buflen` before the call of `recv`. -/
def askLength (count : UInt16) (nread : ℤ) : ℤ :=
  let rest := toSsize (count.toNat - nread)
  if toSize rest < 256 then rest else 256

/-- The loop from its `k`-th call of `recv` on, with a bound on the calls. Source:
`TCPSocket_Read`, lines 745-822 of `js/src/ext/pstcpsocket.c`. -/
def recvLoop (count : UInt16) (r : RecvAnswers) :
    ℕ → ℕ → ℤ → JSString → Option ReadRun
  | 0, _, nread, data => if nread = count.toNat then some ⟨[], nread, .value data⟩ else none
  | fuel + 1, k, nread, data =>
      if nread = count.toNat then some ⟨[], nread, .value data⟩
      else
        let asked := toSize (askLength count nread)
        match r.recv k asked with
        | .error => some ⟨[⟨nread, asked, .error⟩], nread, .socketError⟩
        | .bytes [] => some ⟨[⟨nread, asked, .bytes []⟩], nread, .value data⟩
        | .bytes (b :: bs) =>
            match inflateString (b :: bs) with
            | none => some ⟨[⟨nread, asked, .bytes (b :: bs)⟩], nread, .nullString⟩
            | some s =>
                (recvLoop count r fuel (k + 1) (toSsize (nread + (b :: bs).length))
                  (jsConcatStrings data s)).map (.after ⟨nread, asked, .bytes (b :: bs)⟩)

/-- The run of a loop that starts at `n` with `data`: it is short, each call asks for at
least one byte and at most what fits and is left, and over bytes below 0x80 it returns what
it received. -/
structure ReadRun.Sound (count n : ℕ) (data : JSString) (run : ReadRun) : Prop where
  receives : run.receives.length ≤ count - n
  asked : ∀ r ∈ run.receives,
    (0 ≤ r.nread ∧ r.nread ≤ count) ∧ 1 ≤ r.asked ∧ (r.asked : ℤ) ≤ min 256 (count - r.nread)
  nread : 0 ≤ run.nread ∧ run.nread ≤ count
  value : (∀ b ∈ run.received, b < 0x80) → run.result ≠ .nullString ∧
    ∀ s, run.result = .value s →
      s = data ++ asciiDecode run.received ∧ run.nread = n + run.received.length

section Loop

variable {count : UInt16} {r : RecvAnswers} {fuel k n : ℕ} {data : JSString} {run : ReadRun}

/-- A number of 32 bits is no negative `ssize_t`. -/
theorem toSsize_of_small {x : ℤ} (h : 0 ≤ x) (hlt : x < 2 ^ 32) : toSsize x = x :=
  Int.bmod_eq_of_le (by omega) (by omega)

/-- **Nothing wraps** as long as `nread` is between 0 and `count`. -/
theorem askLength_eq (hn : n ≤ count.toNat) :
    toSize (askLength count n) = min 256 (count.toNat - n) := by
  have hcount : count.toNat < 65536 := UInt16.toNat_lt count
  have hrest : toSsize (count.toNat - n) = count.toNat - n :=
    toSsize_of_small (by omega) (by omega)
  unfold askLength
  dsimp only
  rw [hrest]
  unfold toSize
  split_ifs <;> omega

/-- `nread += buflen` does not wrap either. -/
theorem toSsize_add {len c : ℕ} (hc : c < 65536) (h : n + len ≤ c) :
    toSsize (n + len) = ((n + len : ℕ) : ℤ) := by
  rw [toSsize_of_small (by omega) (by omega)]
  push_cast
  rfl

/-- The loop is over, before its first call of `recv`. -/
theorem recvLoop_done (fuel k : ℕ) (data : JSString) :
    recvLoop count r fuel k count.toNat data =
      some ⟨[], (count.toNat : ℤ), .value data⟩ := by
  cases fuel <;> exact if_pos rfl

/-- A loop that is over has done nothing. -/
theorem ReadRun.sound_done (c : ℕ) (data : JSString) :
    ReadRun.Sound c c data ⟨[], (c : ℤ), .value data⟩ := by
  refine ⟨Nat.zero_le _, by simp, ⟨Int.natCast_nonneg c, Int.le_refl _⟩, fun _ => ⟨by simp, ?_⟩⟩
  rintro s ⟨⟩
  simp [ReadRun.received, asciiDecode]

/-- A loop that ends with a call of `recv` that gives it no byte. -/
theorem ReadRun.sound_last {c : ℕ} {reply : RecvReply} {result : ReadReturn} (hn : n < c)
    (hreply : reply.data = []) (hresult : result = .socketError ∨ result = .value data) :
    ReadRun.Sound c n data ⟨[⟨n, min 256 (c - n), reply⟩], (n : ℤ), result⟩ := by
  refine ⟨?_, ?_, ⟨by dsimp only; omega, by dsimp only; omega⟩, fun _ => ⟨?_, ?_⟩⟩
  · simp only [List.length_singleton]
    omega
  · simp only [List.mem_singleton, forall_eq]
    omega
  · rintro h
    rcases hresult with rfl | rfl <;> cases h
  · rintro s hs
    rcases hresult with rfl | rfl
    · cases hs
    · cases hs
      simp [ReadRun.received, asciiDecode, hreply]

/-- A loop that ends with a chunk that is not well formed. -/
theorem ReadRun.sound_nullString {c : ℕ} {bytes : List UInt8} (hn : n < c)
    (hnone : inflateString bytes = none) :
    ReadRun.Sound c n data ⟨[⟨n, min 256 (c - n), .bytes bytes⟩], (n : ℤ), .nullString⟩ := by
  refine ⟨?_, ?_, ⟨by dsimp only; omega, by dsimp only; omega⟩, fun hascii => ?_⟩
  · simp only [List.length_singleton]
    omega
  · simp only [List.mem_singleton, forall_eq]
    omega
  · -- bytes below 0x80 are well formed
    have hb : ∀ b ∈ bytes, b < 0x80 := by
      simpa [ReadRun.received, RecvReply.data] using hascii
    rw [inflateString_ascii hb] at hnone
    cases hnone

/-- A round that goes on, in front of the run of the rest. -/
theorem ReadRun.Sound.after {c : ℕ} {bytes : List UInt8} {s : JSString}
    (h : ReadRun.Sound c (n + bytes.length) (data ++ s) run) (hn : n < c) (hne : bytes ≠ [])
    (hlen : bytes.length ≤ min 256 (c - n)) (hs : inflateString bytes = some s) :
    ReadRun.Sound c n data (run.after ⟨n, min 256 (c - n), .bytes bytes⟩) := by
  have hpos : 0 < bytes.length := List.length_pos_iff.2 hne
  refine ⟨?_, ?_, h.nread, fun hascii => ?_⟩
  · have hrest := h.receives
    simp only [ReadRun.after, List.length_cons]
    omega
  · rintro r hr
    rcases List.mem_cons.1 hr with rfl | hr
    · dsimp only
      omega
    · exact h.asked r hr
  · have hall : (run.after ⟨n, min 256 (c - n), .bytes bytes⟩).received =
        bytes ++ run.received := rfl
    rw [hall] at hascii ⊢
    obtain ⟨hnull, hvalue⟩ := h.value fun b hb => hascii b (List.mem_append_right _ hb)
    have hs' := inflateString_ascii fun b hb => hascii b (List.mem_append_left _ hb)
    obtain rfl := Option.some.inj (hs.symm.trans hs')
    refine ⟨hnull, fun v hv => ?_⟩
    obtain ⟨rfl, hnread⟩ := hvalue v hv
    refine ⟨by simp [asciiDecode], ?_⟩
    show run.nread = _
    rw [hnread, List.length_append]
    push_cast
    omega

variable (count r fuel k n data) in
/-- **The loop ends**, and each of its rounds leaves `nread` between 0 and `count` and
larger than before: the induction is on the bound, which exceeds what is left to read. -/
theorem recvLoop_sound (hn : n ≤ count.toNat) (hfuel : count.toNat - n < fuel) :
    ∃ run, recvLoop count r fuel k n data = some run ∧ run.Sound count.toNat n data := by
  induction fuel generalizing k n data with
  | zero => omega
  | succ fuel ih =>
      by_cases hdone : n = count.toNat
      · subst hdone
        exact ⟨_, recvLoop_done .., ReadRun.sound_done _ _⟩
      · have hlt : n < count.toNat := by omega
        have hcount : count.toNat < 65536 := UInt16.toNat_lt count
        have hbound := r.bounded k (min 256 (count.toNat - n))
        rw [recvLoop, if_neg (by omega), askLength_eq hn]
        dsimp only
        cases hreply : r.recv k (min 256 (count.toNat - n)) with
        | error => exact ⟨_, rfl, ReadRun.sound_last hlt rfl (.inl rfl)⟩
        | bytes bytes =>
            cases bytes with
            | nil => exact ⟨_, rfl, ReadRun.sound_last hlt rfl (.inr rfl)⟩
            | cons b bs =>
                dsimp only
                cases hs : inflateString (b :: bs) with
                | none => exact ⟨_, rfl, ReadRun.sound_nullString hlt hs⟩
                | some s =>
                    rw [hreply] at hbound
                    have hlen : (b :: bs).length ≤ min 256 (count.toNat - n) := hbound
                    have hpos : 0 < (b :: bs).length := Nat.succ_pos _
                    obtain ⟨run, hrun, hsound⟩ := ih (k + 1) (n + (b :: bs).length)
                      (data ++ s) (by omega) (by omega)
                    refine ⟨run.after ⟨n, min 256 (count.toNat - n), .bytes (b :: bs)⟩, ?_,
                      hsound.after hlt (by simp) hlen hs⟩
                    dsimp only
                    rw [toSsize_add hcount (by omega), jsConcatStrings_eq, hrun]
                    rfl

/-- What a run returns to the script; `none` is the null string. -/
def ReadReturn.native : ReadReturn → Option Native
  | .value data => some (.ok (.string data))
  | .socketError => some (reportError .socketError none)
  | .nullString => none

/-- **The loop is that of `read`**: on an open descriptor, over the answers it got. -/
theorem recvLoop_readLoop {p : Process} {obj : ObjId} {fd : ℤ} (hn : n ≤ count.toNat)
    (hopen : openedBy p.log fd = some obj) (h : recvLoop count r fuel k n data = some run) :
    (readLoop p obj fd count.toNat n data (run.receives.map Receive.reply)).map Prod.snd =
      run.result.native := by
  induction fuel generalizing k n data p run with
  | zero =>
      unfold recvLoop at h
      split_ifs at h with hdone
      obtain rfl : n = count.toNat := by omega
      cases h
      exact congrArg (Option.map Prod.snd) (if_pos rfl)
  | succ fuel ih =>
      by_cases hdone : n = count.toNat
      · subst hdone
        rw [recvLoop_done] at h
        cases h
        exact congrArg (Option.map Prod.snd) (if_pos rfl)
      · have hcount : count.toNat < 65536 := UInt16.toNat_lt count
        have hlength : readLength count.toNat n = min 256 (count.toNat - n) := by
          unfold readLength
          split_ifs <;> omega
        have hbound := r.bounded k (min 256 (count.toNat - n))
        rw [recvLoop, if_neg (by omega), askLength_eq hn] at h
        dsimp only at h
        -- the round of `readLoop` on the same answer
        have hround := fun rest => @readLoop_round p obj fd count.toNat n data rest
          (r.recv k (min 256 (count.toNat - n))) hdone hopen (by rw [hlength]; exact hbound)
        cases hreply : r.recv k (min 256 (count.toNat - n)) with
        | error =>
            rw [hreply] at h hround
            cases h
            exact congrArg (Option.map Prod.snd) (hround [])
        | bytes bytes =>
            rw [hreply] at h hround hbound
            cases bytes with
            | nil =>
                cases h
                exact congrArg (Option.map Prod.snd) (hround [])
            | cons b bs =>
                have hlen : (b :: bs).length ≤ min 256 (count.toNat - n) := hbound
                have hchunk := fun rest => readLoop_chunk data rest hdone hopen
                  (List.cons_ne_nil b bs) (by rw [hlength]; exact hlen)
                dsimp only at h
                cases hs : inflateString (b :: bs) with
                | none =>
                    rw [hs] at h
                    cases h
                    obtain ⟨q, -, hq⟩ := hchunk []
                    rw [hs] at hq
                    exact congrArg (Option.map Prod.snd) hq
                | some s =>
                    rw [hs] at h
                    obtain ⟨run', hrun', rfl⟩ := Option.map_eq_some_iff.1 h
                    obtain ⟨q, hopen', hq⟩ := hchunk (run'.receives.map Receive.reply)
                    rw [toSsize_add hcount (by omega), jsConcatStrings_eq] at hrun'
                    rw [hs] at hq
                    exact (congrArg (Option.map Prod.snd) hq).trans
                      (ih (by omega) hopen' hrun')

/-- **The receive loop of `read`.**  For every count and whatever `recv` answers, it ends
after at most `count + 1` calls; `nread` stays between 0 and `count`, each call asks for
at least one byte and at most 256 and what is left; and a run over bytes below 0x80 that
returns a value returns what was received, in order, with `nread` its length.  Source:
`TCPSocket_Read` (lines 789-821 of `js/src/ext/pstcpsocket.c`) and `js_ConcatStrings`
(lines 132-212 of `js/src/jsstr.c`). -/
theorem recvLoop_bounded (count : UInt16) (r : RecvAnswers) (more : ℕ) :
    ∃ run, recvLoop count r (count.toNat + 1 + more) 0 0 [] = some run ∧
      run.receives.length ≤ count.toNat + 1 ∧
      (∀ r ∈ run.receives, (0 ≤ r.nread ∧ r.nread ≤ count.toNat) ∧
        1 ≤ r.asked ∧ (r.asked : ℤ) ≤ min 256 (count.toNat - r.nread)) ∧
      (0 ≤ run.nread ∧ run.nread ≤ count.toNat) ∧
      ((∀ b ∈ run.received, b < 0x80) → run.result ≠ .nullString ∧
        ∀ s, run.result = .value s →
          s = asciiDecode run.received ∧ run.nread = run.received.length) := by
  obtain ⟨run, hrun, hsound⟩ := recvLoop_sound count r (count.toNat + 1 + more) 0 0 []
    (Nat.zero_le _) (by omega)
  refine ⟨run, hrun, ?_, hsound.asked, hsound.nread, fun hascii => ?_⟩
  · have hreceives := hsound.receives
    omega
  · obtain ⟨hnull, hvalue⟩ := hsound.value hascii
    refine ⟨hnull, fun s hs => ?_⟩
    obtain ⟨rfl, hnread⟩ := hvalue s hs
    exact ⟨List.nil_append _, by rw [hnread]; push_cast; omega⟩

end Loop

end ProntoScript
