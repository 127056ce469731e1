/-
# Constructing a `UDPSocket`

`UDPSocket_CT` (`js/src/ext/psudpsocket.c`, lines 340-443) is meant to take a port or
nothing: with a port the socket is non-blocking, bound to it and registered for
reading, without one it is neither bound nor registered, and a constructor that fails
leaves nothing behind.  The test of the argument is the wrong way round, the number
that stands for no port is cut to 16 bits before it is compared, and no error path
closes the descriptor.  What is left of the intention is said by `constructs_iff`: a
number that is no port is refused, and everything goes well where `socket` itself
fails.
-/

import ProntoScript.Engine.Number
import ProntoScript.Socket.UdpMethods

namespace ProntoScript

/-- An integer from 0 to 65535, stored as an int or as a double. -/
def IsPort (v : JSVal) (port : ℕ) : Prop :=
  port < 2 ^ 16 ∧ (v = .int port ∨ v = .double (intToDouble port) ∨ port = 0 ∧ v = .double negZero)

/-- The object has a descriptor that is bound to the port, non-blocking and registered for
reading. -/
def BoundTo (q : Process) (obj : ObjId) (r : UdpReplies) (port : ℕ) : Prop :=
  ∃ udp, q.udp? obj = some udp ∧ 0 ≤ udp.fd ∧
    (SysCall.bind obj udp.fd port ∈ q.log ∧ r.bind = true) ∧
    (SysCall.fcntl obj udp.fd ∈ q.log ∧ r.getfl = true ∧ r.setfl = true) ∧
    q.registry.lookup udp.fd = some (udpEvent obj)

/-- The object has a descriptor that this call neither bound nor registered. -/
def NotListening (p q : Process) (obj : ObjId) : Prop :=
  ∃ udp later, q.udp? obj = some udp ∧ 0 ≤ udp.fd ∧ q.log = later ++ p.log ∧
    (∀ port, SysCall.bind obj udp.fd port ∉ later) ∧
    ∀ ev, q.registry.lookup udp.fd = some ev → ev.obj ≠ obj

/-- Nothing is left of the call: no open descriptor, no registration, no private data. -/
structure LeavesNothing (p q : Process) (obj : ObjId) : Prop where
  opened : ∀ fd, openedBy q.log fd = openedBy p.log fd
  registry : q.registry = p.registry
  private_data : q.udp? obj = none

/-- A constructor that honours its argument, all or nothing. -/
structure UdpConstructs (p : Process) (obj : ObjId) (argv : List JSVal) (r : UdpReplies)
    (q : Process) (result : Native) : Prop where
  port : ∀ v rest port, argv = v :: rest → IsPort v port →
    result ≠ reportError .argumentNotInt none ∧ (result.isOk = true → BoundTo q obj r port)
  omitted : argv = [] → result.isOk = true → NotListening p q obj
  rejected : ∀ v rest, argv = v :: rest → typeOfValue v ≠ .number → result.isOk = false
  failed : result.isOk = false → (∃ report, result = .error (some report)) ∧ LeavesNothing p q obj

/-- The constructor, with what it is meant to do. -/
def Constructs (p : Process) (obj : ObjId) (argv : List JSVal) (r : UdpReplies) : Prop :=
  ∃ q result, udpSocketCT p obj argv r = some (q, result) ∧ UdpConstructs p obj argv r q result

section

variable {p : Process} {obj : ObjId} {argv : List JSVal} {r : UdpReplies} {v : JSVal} {port : ℕ}

/-- A port is a number. -/
theorem IsPort.number (h : IsPort v port) : typeOfValue v = .number := by
  obtain ⟨-, rfl | rfl | ⟨-, rfl⟩⟩ := h <;> rfl

/-- A number is refused, and nothing has happened before. -/
theorem constructs_number (hv : typeOfValue (argv.headD .void) = .number) :
    Constructs p obj argv r ↔ ∀ v rest, argv = v :: rest → ∀ port, ¬IsPort v port := by
  have hcall : udpSocketCT p obj argv r =
      some (p.setObj obj (.live (.udpSocket none)), reportError .argumentNotInt none) := by
    rw [udpSocketCT]
    exact if_neg (not_not.2 hv)
  constructor
  · rintro ⟨q, result, hq, hlaw⟩ v rest rfl port hport
    cases hcall.symm.trans hq
    exact (hlaw.port v rest port rfl hport).1 rfl
  · intro hno
    refine ⟨_, _, hcall, ?_, ?_, ?_, ?_⟩
    · exact fun v rest port hargv hport => absurd hport (hno v rest hargv port)
    · intro _ hok
      cases hok
    · exact fun _ _ _ _ => rfl
    · refine fun _ => ⟨⟨_, rfl⟩, fun _ => rfl, rfl, ?_⟩
      rw [Process.udp?, Process.setObj_objs_self]
      rfl

/-- Where `socket` fails, everything else is refused with nothing left behind. -/
theorem constructs_of_no_socket (hv : typeOfValue (argv.headD .void) ≠ .number)
    (hmalloc : r.malloc = true) (hneg : r.socket < 0) : Constructs p obj argv r := by
  have hcall : udpSocketCT p obj argv r = some
      ((p.setObj obj (.live (.udpSocket none))).sys (.socket obj r.socket),
        reportError .socketError none) := by
    rw [udpSocketCT]
    refine (if_pos hv).trans ?_
    rw [udpSocketNew, hmalloc]
    exact congrArg some (if_pos hneg)
  refine ⟨_, _, hcall, ?_, ?_, ?_, ?_⟩
  · rintro v rest port rfl hport
    exact absurd hport.number hv
  · intro _ hok
    cases hok
  · exact fun _ _ _ _ => rfl
  · refine fun _ => ⟨⟨_, rfl⟩, fun fd => ?_, rfl, ?_⟩
    · rw [Process.sys_log, openedBy_socket, if_neg (by omega)]
      rfl
    · show ((p.setObj obj (.live (.udpSocket none))).objs obj).udp? = none
      rw [Process.setObj_objs_self]
      rfl

/-- A socket that was opened is registered for an argument that should have been refused
or was not given, or it is left open. -/
theorem opened_not_constructs {q : Process} {result : Native}
    (hv : typeOfValue (argv.headD .void) ≠ .number) (hfresh : p.Fresh r.socket)
    (hnn : 0 ≤ r.socket) (hq : udpSocketCT p obj argv r = some (q, result)) :
    ¬UdpConstructs p obj argv r q result := by
  intro hlaw
  have hleaves := udpSocketCT_leaves hq
  rw [if_neg hv] at hleaves
  obtain ⟨⟨⟨priv, hfd, hobjs⟩, hreg⟩, hopened⟩ := hleaves
  have hpriv : q.udp? obj = priv := by
    rw [Process.udp?, hobjs, Function.update_self]
    rfl
  cases hok : result.isOk with
  | true =>
      -- nothing was refused, so the argument was omitted; but the socket listens
      have hnil : argv = [] := by
        rcases argv with _ | ⟨v, rest⟩
        · rfl
        · exact absurd (hlaw.rejected v rest rfl hv) (by rw [hok]; decide)
      obtain ⟨udp, later, hudp, -, -, -, hlisten⟩ := hlaw.omitted hnil hok
      rw [hpriv] at hudp
      subst hudp
      cases hopens : udpOpens r with
      | false =>
          rw [hopens] at hfd
          cases hfd
      | true =>
          rw [hopens] at hfd hreg
          have hsocket : udp.fd = r.socket := Option.some.inj hfd
          refine hlisten (udpEvent obj) ?_ rfl
          rw [hreg, hsocket]
          exact AList.lookup_insert _
  | false =>
      obtain ⟨-, hnothing⟩ := hlaw.failed hok
      have hleft := hnothing.opened r.socket
      rw [hopened, if_pos ⟨hnn, rfl⟩] at hleft
      rcases hfresh with hneg | ⟨-, hfree⟩
      · omega
      · rw [hfree] at hleft
        cases hleft

/-- Everything else opens a socket, so all is well only where `socket` fails. -/
theorem constructs_other (hv : typeOfValue (argv.headD .void) ≠ .number)
    (hfresh : p.Fresh r.socket) :
    Constructs p obj argv r ↔ r.malloc = true ∧ r.socket < 0 := by
  constructor
  · rintro ⟨q, result, hq, hlaw⟩
    have hmalloc : r.malloc = true := by
      by_contra hm
      rw [udpSocketCT] at hq
      simp only [hv, ne_eq, not_false_eq_true, if_true, udpSocketNew, hm, Bool.false_eq_true,
        if_false, Option.map_none] at hq
      cases hq
    refine ⟨hmalloc, ?_⟩
    by_contra hnn
    exact opened_not_constructs hv hfresh (by omega) hq hlaw
  · exact fun ⟨hmalloc, hneg⟩ => constructs_of_no_socket hv hmalloc hneg

end

/-- **The constructor does what it is meant to do exactly where its argument is a number
that is no port**, or where it is none and `socket` fails.  The test of its type is the
wrong way round: a number is refused, and any other word is taken for one.  Source:
`UDPSocket_CT` (lines 340-443 of `js/src/ext/psudpsocket.c`). -/
theorem constructs_iff (p : Process) (obj : ObjId) (argv : List JSVal) (r : UdpReplies)
    (hfresh : p.Fresh r.socket) :
    Constructs p obj argv r ↔
      (∃ v rest, argv = v :: rest ∧ typeOfValue v = .number ∧ ∀ port, ¬IsPort v port) ∨
      (∀ v rest, argv = v :: rest → typeOfValue v ≠ .number) ∧ r.malloc = true ∧ r.socket < 0 := by
  by_cases hv : typeOfValue (argv.headD .void) = .number
  · rw [constructs_number hv]
    rcases argv with _ | ⟨v, rest⟩
    · cases hv
    · constructor
      · exact fun hno => .inl ⟨v, rest, rfl, hv, hno v rest rfl⟩
      · rintro (⟨v', rest', heq, -, hno⟩ | ⟨hother, -⟩)
        · cases heq
          rintro v' rest' ⟨⟩
          exact hno
        · exact absurd hv (hother v rest rfl)
  · rw [constructs_other hv hfresh]
    rcases argv with _ | ⟨v, rest⟩
    · constructor
      · exact fun h => .inr ⟨fun _ _ heq => (by cases heq), h⟩
      · rintro (⟨v, rest, heq, -⟩ | ⟨-, h⟩)
        · cases heq
        · exact h
    · constructor
      · refine fun h => .inr ⟨?_, h⟩
        rintro v' rest' ⟨⟩
        exact hv
      · rintro (⟨v', rest', heq, hnum, -⟩ | ⟨-, h⟩)
        · cases heq
          exact absurd hnum hv
        · exact h

/-- 70000 is no port, and is refused before a socket is there. -/
theorem constructs_no_port :
    Constructs Process.start 0 [.int 70000] ⟨true, 0, 3, true, true, true, true⟩ := by
  refine (constructs_iff Process.start 0 [.int 70000] ⟨true, 0, 3, true, true, true, true⟩
    (by decide)).2 (.inl ⟨_, _, rfl, rfl, ?_⟩)
  rintro port ⟨hlt, hint | hdouble | ⟨-, hzero⟩⟩
  · injection hint with hint
    omega
  · cases hdouble
  · cases hzero

/-- **Port 5000 is refused** as if it were not an integer, and no call has failed. -/
theorem port_refused : ¬∀ p obj argv r, p.Fresh r.socket → Constructs p obj argv r := by
  intro hclaim
  obtain ⟨q, result, hcall, hlaw⟩ := hclaim Process.start 0 [.int 5000]
    ⟨true, 0, 3, true, true, true, true⟩ (by decide)
  cases hcall
  exact (hlaw.port (.int 5000) [] 5000 rfl ⟨by decide, .inl rfl⟩).1 rfl

end ProntoScript
