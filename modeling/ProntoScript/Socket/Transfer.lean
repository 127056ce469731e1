/-
# The bytes of one `write` and one `read`

`TCPSocket_Write` and `TCPSocket_Read` (`js/src/ext/pstcpsocket.c`, lines 789-887)
move strings as UTF-8, but count in two units.  `write` hands `send` the bytes of
the encoding with the length of the string, and does not look at how many of them
were taken: the kernel has the whole encoding after it only where every character
is one byte and `send` takes them all (`write_whole`).  `read` decodes what each
`recv` returns by itself: the string is that of all the bytes only where no `recv`
ends inside a character (`read_whole`).
-/

import ProntoScript.Engine.Encoding
import ProntoScript.Socket.Stream

namespace ProntoScript

/-! ### Writing -/

/-- The bytes the kernel accepted in a call. -/
def SysCall.accepted : SysCall → List UInt8
  | .send _ _ data nwritten => data.take nwritten.toNat
  | _ => []

/-- The bytes the kernel accepted in the calls of a log, in order. -/
def acceptedBytes (log : List SysCall) : List UInt8 := log.reverse.flatMap SysCall.accepted

/-- If `write` of the string returns, the kernel accepted the encoding of the string,
no byte more and no byte less. -/
def WritesWhole (p : Process) (s : JSString) (q : Process × Native) : Prop :=
  ∀ calls, q.1.log = calls ++ p.log → q.2.isOk = true → deflateString s = some (acceptedBytes calls)

section Write

variable {p : Process} {obj : ObjId} {tcp : TCPSocket} {s : JSString} {rest : List JSVal} {sent : ℤ}

variable (s rest sent) in
/-- `write` on a connected socket is one `send`, and fails exactly if that does. -/
theorem tcpSocketWrite_send (ht : p.tcp? obj = some tcp) (hst : tcp.state = .connected) :
    ∃ q, tcpSocketWrite p obj (.string s :: rest) sent = q ∧
      q.1.log = [.send obj tcp.fd ((getStringBytes s).take s.length)
        (if p.answer tcp.fd (deflateString s).isSome then sent else -1)] ++ p.log ∧
      (q.2.isOk = true ↔ (if p.answer tcp.fd (deflateString s).isSome then sent else -1) ≠ -1) := by
  refine ⟨_, rfl, ?_⟩
  unfold tcpSocketWrite
  rw [ht]
  dsimp only
  rw [if_neg (not_not.2 hst)]
  generalize (if p.answer tcp.fd (deflateString s).isSome = true then sent else -1) = n
  by_cases hn : n = -1
  · rw [if_pos hn]
    exact ⟨rfl, iff_of_false (by rintro ⟨⟩) (not_not.2 hn)⟩
  · rw [if_neg hn]
    exact ⟨rfl, iff_of_true rfl hn⟩

/-- **What `write` gets across.**  On a connected socket `write` of a string does what it
promises exactly where it fails (its descriptor is not open, the string has no encoding,
or `send` refuses), or every character is below 0x80 and `send` accepts as many bytes as
there are characters.  The string is sent in UTF-8, and the length given to `send` is that
of the string in characters.  Source: `TCPSocket_Write` (lines 837-887 of
`js/src/ext/pstcpsocket.c`), `js_DeflateString` and `js_GetStringBytes` (lines 2910-2995
and 3207-3248 of `js/src/jsstr.c`). -/
theorem write_whole (p : Process) (obj : ObjId) (tcp : TCPSocket) (s : JSString)
    (rest : List JSVal) (sent : ℤ) (htcp : p.tcp? obj = some tcp) (hstate : tcp.state = .connected)
    (hsent : sent = -1 ∨ 0 ≤ sent ∧ sent ≤ s.length) :
    WritesWhole p s (tcpSocketWrite p obj (.string s :: rest) sent) ↔
      ((openedBy p.log tcp.fd = none ∨ deflateString s = none ∨ sent = -1) ∨
        (∀ c ∈ s, c < 0x80) ∧ sent = s.length) := by
  obtain ⟨q, hq, hlog, hok⟩ := tcpSocketWrite_send s rest sent htcp hstate
  rw [hq]
  cases hopen : openedBy p.log tcp.fd with
  | none =>
      have hans : p.answer tcp.fd (deflateString s).isSome = false := by
        rw [Process.answer, hopen]
        rfl
      rw [hans] at hok
      exact iff_of_true (fun _ _ h => absurd rfl (hok.1 h)) (.inl (.inl rfl))
  | some o =>
      have hans : p.answer tcp.fd (deflateString s).isSome = (deflateString s).isSome := by
        rw [Process.answer, hopen]
        rfl
      rw [hans] at hlog hok
      cases hbytes : deflateString s with
      | none =>
          rw [hbytes] at hok
          exact iff_of_true (fun _ _ h => absurd rfl (hok.1 h)) (.inl (.inr (.inl rfl)))
      | some bytes =>
          have hget : getStringBytes s = bytes := by
            rw [getStringBytes, hbytes]
            rfl
          rw [hbytes, hget] at hlog
          rw [hbytes] at hok
          simp only [Option.isSome_some, if_true] at hlog hok
          obtain ⟨hle, hascii⟩ := deflateString_length hbytes
          have haccepted : acceptedBytes [.send obj tcp.fd (bytes.take s.length) sent] =
              bytes.take (min sent.toNat s.length) := by
            simp [acceptedBytes, SysCall.accepted, List.take_take]
          constructor
          · intro h
            by_cases hfail : sent = -1
            · exact .inl (.inr (.inr hfail))
            · have hall := Option.some.inj (hbytes.symm.trans (h _ hlog (hok.2 hfail)))
              rw [haccepted] at hall
              -- nothing is cut off, so the encoding is no longer than what was taken
              have hlen : bytes.length ≤ min sent.toNat s.length := by
                have := congrArg List.length hall
                rw [List.length_take] at this
                omega
              exact .inr ⟨hascii.1 (by omega), by omega⟩
          · rintro ((hno | hno | hfail) | ⟨hone, hall⟩)
            · cases hno
            · cases hno
            · exact fun _ _ h => absurd hfail (hok.1 h)
            · intro calls hcalls _
              obtain rfl := List.append_cancel_right (hlog.symm.trans hcalls)
              have hlen := hascii.2 hone
              rw [hbytes, haccepted, List.take_of_length_le (by omega)]

/-- A socket that `connect` connected on descriptor 3. -/
def connectedOn3 (blocking : Bool) : Process :=
  let p := (tcpSocketCT .start 0 [.boolean blocking] true).1
  (tcpSocketConnect p 0 [.string (asciiString "1"), .int 80]
    { strayPort := 0, strayTimeout := 0, inetAddr := 1, lookup := none, socket := 3, getfl := true,
      setfl := true, connect := .done, mem := true }).1

/-- Two characters below 0x80, both accepted. -/
theorem write_whole_ascii :
    WritesWhole (connectedOn3 true) [0x6F, 0x6B]
      (tcpSocketWrite (connectedOn3 true) 0 [.string [0x6F, 0x6B]] 2) :=
  (write_whole (connectedOn3 true) 0 _ [0x6F, 0x6B] [] 2 rfl rfl (by decide)).2
    (.inr ⟨List.forall_mem_cons.2 ⟨by decide, List.forall_mem_singleton.2 (by decide)⟩, rfl⟩)

/-- **A character of two bytes goes out as one**: `write` of the string of U+00E9
returns although `send` was given, and accepted, only the first byte. -/
theorem write_truncates :
    (tcpSocketWrite (connectedOn3 true) 0 [.string [0xE9]] 1).2 = .ok .void ∧
      ¬ WritesWhole (connectedOn3 true) [0xE9]
        (tcpSocketWrite (connectedOn3 true) 0 [.string [0xE9]] 1) := by
  refine ⟨rfl, fun h => ?_⟩
  have := h [.send 0 3 [0xC3] 1] rfl rfl
  revert this
  decide

end Write

/-! ### Reading -/

/-- `recv` hands out the bytes of `B`, from the one after `nread` on, in results of
any length the loop asks for, and then the end of the stream: the answers of one
whole `read` of `count` bytes. -/
inductive Serves (count : ℕ) : ℕ → List UInt8 → List RecvReply → Prop
  | full (B : List UInt8) : Serves count count B []
  | eof {nread : ℕ} : nread ≠ count → Serves count nread [] [.bytes []]
  | chunk {nread : ℕ} {c B : List UInt8} {replies : List RecvReply} :
      nread ≠ count → c ≠ [] → c.length ≤ readLength count nread →
      Serves count (nread + c.length) B replies → Serves count nread (c ++ B) (.bytes c :: replies)

/-- The count the arguments of `read` ask for is at least `n`, as the code reads it:
`JSVAL_TO_INT` of the first argument in a `JSUint16`. -/
def AsksFor (stray : ℤ) (argv : List JSVal) (n : ℕ) : Prop :=
  match argv with
  | [] => n ≤ 65535
  | count :: _ => typeOfValue count = .number ∧ n ≤ toUint16 (jsvalToInt stray count)

instance (stray : ℤ) (argv : List JSVal) (n : ℕ) : Decidable (AsksFor stray argv n) := by
  unfold AsksFor
  split <;> infer_instance

section Read

variable {p : Process} {obj : ObjId} {tcp : TCPSocket} {argv : List JSVal} {fd stray : ℤ}
  {count nread n : ℕ} {data s : JSString} {c B : List UInt8} {replies : List RecvReply}

/-- What a `read` asks for is the count it takes, as a word of 16 bits. -/
theorem asksFor_iff :
    AsksFor stray argv n ↔ ∃ count, tcpSocketReadCount stray argv = .ok count ∧ n ≤ count := by
  unfold AsksFor tcpSocketReadCount
  cases argv with
  | nil => simp
  | cons count rest =>
      dsimp only
      by_cases hnum : typeOfValue count = .number
      · rw [if_neg (not_not.2 hnum)]
        simp [hnum]
      · rw [if_pos hnum]
        simp [hnum]

variable (data replies) in
/-- The loop over a result that decodes goes on with the string of it, over one that
does not it ends in the null dereference. -/
theorem readLoop_chunk (hne : nread ≠ count) (hopen : openedBy p.log fd = some obj) (hc : c ≠ [])
    (hlen : c.length ≤ readLength count nread) :
    ∃ q, openedBy q.log fd = some obj ∧
      readLoop p obj fd count nread data (.bytes c :: replies) =
        (inflateString c).bind fun s =>
          readLoop q obj fd count (nread + c.length) (data ++ s) replies := by
  refine ⟨p.sys (.recv obj fd (readLength count nread) false), ?_, ?_⟩
  · show openedBy (_ :: p.log) fd = some obj
    rw [openedBy_use rfl rfl]
    exact hopen
  · rw [readLoop_round (.bytes c) hne hopen hlen]
    cases c with
    | nil => exact absurd rfl hc
    | cons b bs =>
        rw [readRound]
        cases inflateString (b :: bs) <;> rfl

variable (data) in
/-- **The loop of `read`.**  Where every result of `recv` decodes by itself the loop
returns the string of the bytes it took, which are all there are or as many as it was
asked for; where one does not, it returns nothing. -/
theorem readLoop_serves (hserves : Serves count nread B replies)
    (hopen : openedBy p.log fd = some obj) (hle : nread ≤ count) :
    ((∀ c, .bytes c ∈ replies → (inflateString c).isSome) ∧
      ∃ q taken left s, B = taken ++ left ∧ inflateString taken = some s ∧
        nread + taken.length ≤ count ∧ (left = [] ∨ nread + taken.length = count) ∧
        readLoop p obj fd count nread data replies = some (q, .ok (.string (data ++ s)))) ∨
    ((∃ c, .bytes c ∈ replies ∧ inflateString c = none) ∧
      readLoop p obj fd count nread data replies = none) := by
  induction hserves generalizing p data with
  | full B =>
      refine .inl ⟨by simp, p, [], B, [], rfl, rfl, by simp, .inr (by simp), ?_⟩
      rw [readLoop, if_pos rfl, List.append_nil]
  | eof hne =>
      rename_i nread
      refine .inl ⟨by simp [inflateString, inflateLoop], ?_⟩
      refine ⟨p.sys (.recv obj fd (readLength count nread) false), [], [], [], rfl, rfl, by simpa,
        .inl rfl, ?_⟩
      rw [readLoop_round (.bytes []) hne hopen (Nat.zero_le _), List.append_nil]
      rfl
  | chunk hne hc hlen _ ih =>
      rename_i nread c B replies _
      have hlen' : nread + c.length ≤ count := by
        unfold readLength at hlen
        split_ifs at hlen <;> omega
      obtain ⟨q, hq, hloop⟩ := readLoop_chunk data replies hne hopen hc hlen
      rw [hloop]
      cases hs : inflateString c with
      | none => exact .inr ⟨⟨c, by simp, hs⟩, rfl⟩
      | some s =>
          rw [Option.bind_some]
          rcases ih (data ++ s) hq hlen' with
            ⟨hall, r, taken, left, t, rfl, ht, hle', hend, hr⟩ | ⟨⟨c', hc', hnone⟩, hr⟩
          · refine .inl ⟨fun c' hc' => ?_, r, c ++ taken, left, s ++ t, ?_, ?_, ?_, ?_, ?_⟩
            · rcases List.mem_cons.1 hc' with heq | hc'
              · cases heq
                rw [hs]
                rfl
              · exact hall c' hc'
            · rw [List.append_assoc]
            · rw [inflateString_append hs, ht]
              rfl
            · rw [List.length_append]
              omega
            · rw [List.length_append]
              exact hend.imp_right (by omega)
            · rw [hr, List.append_assoc]
          · exact .inr ⟨⟨c', by simp [hc'], hnone⟩, hr⟩

/-- **What `read` makes of the bytes.**  For a byte sequence that decodes to `s` and every
way `recv` cuts it up, `read` on a connected socket returns `s` exactly if it asks for as
many bytes as there are and every result of `recv` decodes by itself: each is made a
string before the next one comes.  Source: `TCPSocket_Read` (lines 789-821 of
`js/src/ext/pstcpsocket.c`), `js_InflateString` and `js_InflateStringToBuffer`
(lines 2890-2905 and 2997-3077 of `js/src/jsstr.c`). -/
theorem read_whole (p : Process) (obj : ObjId) (tcp : TCPSocket) (argv : List JSVal) (stray : ℤ)
    (B : List UInt8) (s : JSString) (replies : List RecvReply) (htcp : p.tcp? obj = some tcp)
    (hstate : tcp.state = .connected) (hopen : openedBy p.log tcp.fd = some obj)
    (hs : inflateString B = some s)
    (hserves : ∀ count, tcpSocketReadCount stray argv = .ok count → Serves count 0 B replies) :
    (∃ q, tcpSocketRead p obj argv stray replies = some (q, .ok (.string s))) ↔
      AsksFor stray argv B.length ∧ ∀ c, .bytes c ∈ replies → (inflateString c).isSome := by
  rw [asksFor_iff]
  unfold tcpSocketRead
  rw [htcp]
  dsimp only
  cases hcount : tcpSocketReadCount stray argv with
  | error e => simp
  | ok count =>
      dsimp only
      rw [if_neg (not_not.2 hstate)]
      rcases readLoop_serves [] (hserves count hcount) hopen (Nat.zero_le _) with
        ⟨hall, q, taken, left, t, rfl, ht, hle, hend, hr⟩ | ⟨⟨c, hc, hnone⟩, hr⟩
      · rw [hr, List.nil_append]
        constructor
        · rintro ⟨q', hq'⟩
          obtain rfl : t = s := by simpa using congrArg (Option.map Prod.snd) hq'
          obtain rfl := eq_nil_of_inflateString_append ht hs
          exact ⟨⟨count, rfl, by simpa using hle⟩, hall⟩
        · rintro ⟨⟨_, ⟨⟩, hlen⟩, -⟩
          have hleft : left = [] := by
            rcases hend with hnil | hfull
            · exact hnil
            · rw [List.length_append] at hlen
              exact List.eq_nil_of_length_eq_zero (by omega)
          subst hleft
          rw [List.append_nil, ht] at hs
          exact ⟨q, by rw [Option.some.inj hs]⟩
      · rw [hr]
        refine iff_of_false (by rintro ⟨_, ⟨⟩⟩) fun h => ?_
        have := h.2 c hc
        rw [hnone] at this
        cases this

/-- The string "Hé", in a result for each character and the end of the stream. -/
theorem read_whole_characters :
    ∃ q, tcpSocketRead (connectedOn3 true) 0 [.int 5] 0
      [.bytes [0x48], .bytes [0xC3, 0xA9], .bytes []] = some (q, .ok (.string [0x48, 0xE9])) := by
  refine (read_whole (connectedOn3 true) 0 _ [.int 5] 0 [0x48, 0xC3, 0xA9] [0x48, 0xE9] _ rfl rfl rfl
    (by decide) fun count hcount => ?_).2 ⟨by decide, fun c hc => ?_⟩
  · obtain rfl : 5 = count := Except.ok.inj (hcount : Except.ok (toUint16 5) = .ok count)
    exact .chunk (c := [0x48]) (by decide) (by decide) (by decide)
      (.chunk (c := [0xC3, 0xA9]) (by decide) (by decide) (by decide) (.eof (by decide)))
  · simp only [List.mem_cons, RecvReply.bytes.injEq, List.not_mem_nil, or_false] at hc
    rcases hc with rfl | rfl | rfl <;> decide

/-- **A character across two results is fatal**: the bytes of U+00E9, one in each
result, decode together, but `JS_NewStringCopyN` refuses the first by itself and
`JS_ConcatStrings` dereferences the null it returns. -/
theorem read_across_chunks :
    inflateString [0xC3, 0xA9] = some [0xE9] ∧
      Serves 5 0 [0xC3, 0xA9] [.bytes [0xC3], .bytes [0xA9], .bytes []] ∧
      tcpSocketRead (connectedOn3 true) 0 [.int 5] 0 [.bytes [0xC3], .bytes [0xA9], .bytes []] =
        none := by
  refine ⟨by decide, ?_, rfl⟩
  exact .chunk (c := [0xC3]) (by decide) (by decide) (by decide)
    (.chunk (c := [0xA9]) (by decide) (by decide) (by decide) (.eof (by decide)))

end Read

end ProntoScript
