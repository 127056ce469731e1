/-
# The system calls of the sockets

Every `socket`, `bind`, `fcntl`, `connect`, `getpeername`, `recv`, `send`,
`recvfrom`, `sendto`, `shutdown` and `close` of `js/src/ext/pstcpsocket.c` and
`js/src/ext/psudpsocket.c` is logged with the object that issues it, the
descriptor it names and, where the rest depends on it, the kernel's answer.  The
log, latest call first, determines the kernel's table of descriptors: which
object opened a descriptor that is open now (`openedBy`) and whether the kernel
confirmed its connection, by a `connect` or a `getpeername` that returned 0
(`confirmed`).  A call on a negative descriptor touches no table entry.
-/

import ProntoScript.Foundation.Ledger
import ProntoScript.Select.Event

namespace ProntoScript

/-- A system call by the object that issues it. -/
inductive SysCall
  | socket (obj : ObjId) (fd : ℤ)
  | bind (obj : ObjId) (fd : ℤ) (port : ℕ)
  | fcntl (obj : ObjId) (fd : ℤ)
  | connect (obj : ObjId) (fd : ℤ) (ip : UInt32) (port : ℕ) (ok : Bool)
  | getpeername (obj : ObjId) (fd : ℤ) (ok : Bool)
  | recv (obj : ObjId) (fd : ℤ) (len : ℕ) (peek : Bool)
  | send (obj : ObjId) (fd : ℤ) (data : List UInt8) (accepted : ℤ)
  | recvfrom (obj : ObjId) (fd : ℤ) (len : ℕ)
  | sendto (obj : ObjId) (fd : ℤ) (ip : UInt32) (port : ℕ) (data : List UInt8)
  | shutdown (obj : ObjId) (fd : ℤ)
  | close (obj : ObjId) (fd : ℤ)
deriving DecidableEq

namespace SysCall

/-- The object that issues the call. -/
def obj : SysCall → ObjId
  | socket o _ | bind o _ _ | fcntl o _ | connect o _ _ _ _ | getpeername o _ _ | recv o _ _ _
  | send o _ _ _ | recvfrom o _ _ | sendto o _ _ _ _ | shutdown o _ | close o _ => o

/-- The descriptor the call names; for `socket` the one it returns. -/
def fd : SysCall → ℤ
  | socket _ n | bind _ n _ | fcntl _ n | connect _ n _ _ _ | getpeername _ n _ | recv _ n _ _
  | send _ n _ _ | recvfrom _ n _ | sendto _ n _ _ _ | shutdown _ n | close _ n => n

/-- The call returns a new descriptor. -/
def opens : SysCall → Bool
  | socket _ _ => true
  | bind _ _ _ | fcntl _ _ | connect _ _ _ _ _ | getpeername _ _ _ | recv _ _ _ _ | send _ _ _ _
  | recvfrom _ _ _ | sendto _ _ _ _ _ | shutdown _ _ | close _ _ => false

/-- The call takes the descriptor out of the table. -/
def closes : SysCall → Bool
  | close _ _ => true
  | socket _ _ | bind _ _ _ | fcntl _ _ | connect _ _ _ _ _ | getpeername _ _ _ | recv _ _ _ _
  | send _ _ _ _ | recvfrom _ _ _ | sendto _ _ _ _ _ | shutdown _ _ => false

/-- `recv` and `send`, with which a `TCPSocket` moves data. -/
def transfers : SysCall → Bool
  | recv _ _ _ _ | send _ _ _ _ => true
  | _ => false

/-- The answer confirms the connection of the descriptor. -/
def confirms : SysCall → Bool
  | connect _ _ _ _ ok | getpeername _ _ ok => ok
  | _ => false

/-- What the call does to the table of descriptors. -/
def tableEntry (c : SysCall) : Ledger.Entry ObjId ℤ :=
  if c.opens then .acquire c.obj c.fd
  else if c.closes then .release c.obj c.fd
  else .use c.obj c.fd c.confirms c.transfers

/-- The table entry of the call; a negative descriptor has none. -/
def entry (c : SysCall) : Option (Ledger.Entry ObjId ℤ) :=
  if c.fd < 0 then none else some c.tableEntry

end SysCall

/-- The table entries of a log. -/
def ledger (log : List SysCall) : List (Ledger.Entry ObjId ℤ) := log.filterMap SysCall.entry

/-- The object that opened a descriptor, while it is open. -/
def openedBy (log : List SysCall) (fd : ℤ) : Option ObjId := Ledger.holder (ledger log) fd

/-- Whether the connection of an open descriptor was confirmed. -/
def confirmed (log : List SysCall) (fd : ℤ) : Bool := Ledger.stamped (ledger log) fd

section Table

variable {log : List SysCall} {c : SysCall} {o : ObjId} {n fd : ℤ}

/-- A call on a negative number is not in the ledger. -/
theorem ledger_of_neg (hn : c.fd < 0) : ledger (c :: log) = ledger log := by
  rw [ledger, List.filterMap_cons, SysCall.entry, if_pos hn]
  rfl

/-- A call on any other is, as what it means for the descriptor. -/
theorem ledger_of_nonneg (hn : 0 ≤ c.fd) : ledger (c :: log) = c.tableEntry :: ledger log := by
  rw [ledger, List.filterMap_cons, SysCall.entry, if_neg (by omega)]
  rfl

/-- `socket` opens the number it returns, if it is one. -/
theorem openedBy_socket :
    openedBy (.socket o n :: log) fd = if 0 ≤ n ∧ n = fd then some o else openedBy log fd := by
  unfold openedBy
  rcases Int.lt_or_le n 0 with hn | hn
  · rw [ledger_of_neg (c := .socket o n) hn, if_neg (by omega)]
  · rw [ledger_of_nonneg (c := .socket o n) hn]
    simp [SysCall.tableEntry, SysCall.opens, SysCall.obj, SysCall.fd, Ledger.holder, hn]

/-- `close` closes the number it is given. -/
theorem openedBy_close :
    openedBy (.close o n :: log) fd = if 0 ≤ n ∧ n = fd then none else openedBy log fd := by
  unfold openedBy
  rcases Int.lt_or_le n 0 with hn | hn
  · rw [ledger_of_neg (c := .close o n) hn, if_neg (by omega)]
  · rw [ledger_of_nonneg (c := .close o n) hn]
    simp [SysCall.tableEntry, SysCall.opens, SysCall.closes, SysCall.fd, Ledger.holder, hn]

/-- Only `socket` and `close` change who opened what. -/
theorem openedBy_use (ho : c.opens = false) (hc : c.closes = false) :
    openedBy (c :: log) fd = openedBy log fd := by
  unfold openedBy
  rcases Int.lt_or_le c.fd 0 with hn | hn
  · rw [ledger_of_neg hn]
  · rw [ledger_of_nonneg hn]
    simp [SysCall.tableEntry, ho, hc, Ledger.holder]

/-- A new descriptor has no connection. -/
theorem confirmed_socket :
    confirmed (.socket o n :: log) fd = if 0 ≤ n ∧ n = fd then false else confirmed log fd := by
  unfold confirmed
  rcases Int.lt_or_le n 0 with hn | hn
  · rw [ledger_of_neg (c := .socket o n) hn, if_neg (by omega)]
  · rw [ledger_of_nonneg (c := .socket o n) hn]
    simp [SysCall.tableEntry, SysCall.opens, SysCall.fd, Ledger.stamped, hn]

/-- A closed one has none either. -/
theorem confirmed_close :
    confirmed (.close o n :: log) fd = if 0 ≤ n ∧ n = fd then false else confirmed log fd := by
  unfold confirmed
  rcases Int.lt_or_le n 0 with hn | hn
  · rw [ledger_of_neg (c := .close o n) hn, if_neg (by omega)]
  · rw [ledger_of_nonneg (c := .close o n) hn]
    simp [SysCall.tableEntry, SysCall.opens, SysCall.closes, SysCall.fd, Ledger.stamped, hn]

/-- The other calls confirm their own descriptor, if any. -/
theorem confirmed_use (ho : c.opens = false) (hc : c.closes = false) :
    confirmed (c :: log) fd =
      (decide (0 ≤ c.fd ∧ c.fd = fd) && c.confirms || confirmed log fd) := by
  unfold confirmed
  rcases Int.lt_or_le c.fd 0 with hn | hn
  · rw [ledger_of_neg hn, decide_eq_false (by omega), Bool.false_and, Bool.false_or]
  · rw [ledger_of_nonneg hn]
    simp [SysCall.tableEntry, ho, hc, Ledger.stamped, hn, Bool.and_comm]

/-- What is open is not negative. -/
theorem openedBy_nonneg (h : openedBy log fd = some o) : 0 ≤ fd := by
  induction log with
  | nil => cases h
  | cons c log ih =>
      cases c with
      | socket o' n =>
          rw [openedBy_socket] at h
          split_ifs at h with hn
          · omega
          · exact ih h
      | close o' n =>
          rw [openedBy_close] at h
          split_ifs at h with hn
          exact ih h
      | _ => exact ih (by rwa [openedBy_use rfl rfl] at h)

/-- The ledger of two stretches. -/
theorem ledger_append (later earlier : List SysCall) :
    ledger (later ++ earlier) = ledger later ++ ledger earlier :=
  List.filterMap_append

/-- The released descriptors are those that were closed. -/
theorem mem_ledger_release (h : Ledger.Entry.release o n ∈ ledger log) :
    SysCall.close o n ∈ log := by
  obtain ⟨c, hc, hentry⟩ := List.mem_filterMap.1 h
  cases c <;> simp_all [SysCall.entry, SysCall.tableEntry, SysCall.opens, SysCall.closes,
    SysCall.obj, SysCall.fd]

/-- A descriptor that was handed out and is not open any more was closed. -/
theorem close_of_not_opened {later earlier : List SysCall} (hn : 0 ≤ n)
    (h : openedBy (later ++ .socket o n :: earlier) n = none) :
    ∃ o', SysCall.close o' n ∈ later := by
  rw [openedBy, ledger_append, ledger_of_nonneg (c := .socket o n) hn] at h
  obtain ⟨o', hrel⟩ := Ledger.release_of_not_holder h
  exact ⟨o', mem_ledger_release hrel⟩

/-- A descriptor that is open was handed out and not closed since. -/
theorem socket_of_opened (h : openedBy log n = some o) :
    ∃ later earlier, log = later ++ .socket o n :: earlier ∧ ∀ o', SysCall.close o' n ∉ later := by
  have hnn := openedBy_nonneg h
  induction log with
  | nil => cases h
  | cons c log ih =>
      have hlast : openedBy log n = some o → (∀ o', c ≠ .close o' n) →
          ∃ later earlier, c :: log = later ++ .socket o n :: earlier ∧
            ∀ o', SysCall.close o' n ∉ later := by
        intro hlog hc
        obtain ⟨later, earlier, rfl, hno⟩ := ih hlog
        refine ⟨c :: later, earlier, rfl, fun o' hmem => ?_⟩
        rcases List.mem_cons.1 hmem with heq | hmem
        · exact hc o' heq.symm
        · exact hno o' hmem
      cases c with
      | socket o' m =>
          rw [openedBy_socket] at h
          split_ifs at h with hm
          · obtain ⟨-, rfl⟩ := hm
            obtain rfl := Option.some.inj h
            exact ⟨[], log, rfl, fun _ hmem => by cases hmem⟩
          · exact hlast h fun _ => by rintro ⟨⟩
      | close o' m =>
          rw [openedBy_close] at h
          split_ifs at h with hm
          refine hlast h fun o'' heq => ?_
          cases heq
          exact hm ⟨hnn, rfl⟩
      | _ => exact hlast (by rwa [openedBy_use rfl rfl] at h) fun _ => by rintro ⟨⟩

end Table

/-- A call respects the table the calls before it left: it names, unless its
descriptor is negative, a descriptor its own object opened and that is open, and
it transfers data only where the connection was confirmed. -/
def SysCall.Respects (c : SysCall) (log : List SysCall) : Prop :=
  0 ≤ c.fd → c.opens = false →
    openedBy log c.fd = some c.obj ∧ (c.transfers = true → confirmed log c.fd = true)

end ProntoScript
