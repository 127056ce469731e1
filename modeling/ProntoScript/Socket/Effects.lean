/-
# Acts that only make calls

Reading, writing and the configuration of a descriptor change nothing but the log
(`ActsOnly`).  The kernel answers a call on a descriptor its object opened
(`Process.answer_of_open`), so what follows from the answers can be said without
the table.
-/

import ProntoScript.Socket.Ownership
import ProntoScript.Socket.Udp

namespace ProntoScript

open Relation (ReflTransGen)

/-! ### Calls on an open descriptor -/

section Calls

variable {A : ObjId} {p : Process} {fd n : ℤ} {c : SysCall} {ok : Bool}

/-- A call that moves no data on a descriptor its object opened. -/
theorem SysCall.respects_of_open {log : List SysCall} (hc : c.transfers = false)
    (h : 0 ≤ c.fd → openedBy log c.fd = some c.obj) : c.Respects log :=
  fun hnn _ => ⟨h hnn, fun ht => absurd (hc.symm.trans ht) (by decide)⟩

/-- The kernel answers calls on valid numbers only. -/
theorem Process.answer_of_open (h : 0 ≤ fd → openedBy p.log fd = some A) :
    p.answer fd ok = (decide (0 ≤ fd) && ok) := by
  unfold answer
  by_cases hfd : 0 ≤ fd
  · rw [h hfd, decide_eq_true hfd]
    rfl
  · cases ho : openedBy p.log fd with
    | none => rw [decide_eq_false hfd]; rfl
    | some B => exact absurd (openedBy_nonneg ho) hfd

/-- A call on a descriptor that is held is answered as the kernel pleases, one on -1
fails. -/
theorem Process.answer_of_held (h : fd = -1 ∨ openedBy p.log fd = some A) :
    p.answer fd ok = (fd != -1 && ok) := by
  rcases h with rfl | h
  · rw [answer_of_open (A := A) fun hnn => absurd hnn (by decide)]
    rfl
  · have hnn := openedBy_nonneg h
    have hne : fd ≠ -1 := by omega
    rw [answer_of_open fun _ => h, decide_eq_true hnn, bne_iff_ne.2 hne]

/-- The new process differs from the old one by calls that open and close nothing. -/
structure Calls (p q : Process) : Prop where
  objs : q.objs = p.objs
  registry : q.registry = p.registry
  opened : ∀ n, openedBy q.log n = openedBy p.log n
  confirmed : ∀ n, confirmed p.log n = true → confirmed q.log n = true

/-- No call need be made. -/
theorem Calls.refl (p : Process) : Calls p p := ⟨rfl, rfl, fun _ => rfl, fun _ h => h⟩

/-- Calls may follow calls. -/
theorem Calls.trans {p q s : Process} (h₁ : Calls p q) (h₂ : Calls q s) : Calls p s where
  objs := h₂.objs.trans h₁.objs
  registry := h₂.registry.trans h₁.registry
  opened n := (h₂.opened n).trans (h₁.opened n)
  confirmed n h := h₂.confirmed n (h₁.confirmed n h)

/-- A call that neither opens nor closes leaves the descriptors. -/
theorem Calls.sys (hopens : c.opens = false) (hcloses : c.closes = false) : Calls p (p.sys c) where
  objs := rfl
  registry := rfl
  opened _ := openedBy_use hopens hcloses
  confirmed n h := by rw [Process.sys_log, confirmed_use hopens hcloses, h, Bool.or_true]

/-- Acts that leave everything but the log as it is. -/
structure ActsOnly (A : ObjId) (p q : Process) : Prop where
  acts : Acts A p q
  calls : Calls p q

/-- Nothing need be done. -/
theorem ActsOnly.refl (A : ObjId) (p : Process) : ActsOnly A p p := ⟨.refl, .refl p⟩

/-- Acts may follow acts. -/
theorem ActsOnly.trans {A : ObjId} {p q s : Process} (h₁ : ActsOnly A p q) (h₂ : ActsOnly A q s) :
    ActsOnly A p s := ⟨h₁.acts.trans h₂.acts, h₁.calls.trans h₂.calls⟩

/-- One call. -/
theorem ActsOnly.use {A : ObjId} {c : SysCall} (hobj : c.obj = A) (hopens : c.opens = false)
    (hcloses : c.closes = false) (hc : c.Respects p.log) : ActsOnly A p (p.sys c) :=
  ⟨.single (.use hobj hopens hcloses hc), .sys hopens hcloses⟩

/-- An object held -1 or a descriptor it opened. -/
theorem open_of_held (h : fd = -1 ∨ openedBy p.log fd = some A) (hnn : 0 ≤ fd) :
    openedBy p.log fd = some A :=
  h.resolve_left (by omega)

/-- `setNonblocking` makes two calls. -/
theorem setNonblocking_acts (getfl setfl : Bool) (h : 0 ≤ fd → openedBy p.log fd = some A) :
    Acts A p (setNonblocking p A fd getfl setfl).1 := by
  have h₁ : Act A p (p.sys (.fcntl A fd)) := .use rfl rfl rfl (SysCall.respects_of_open rfl h)
  have h₂ : Act A (p.sys (.fcntl A fd)) ((p.sys (.fcntl A fd)).sys (.fcntl A fd)) :=
    .use rfl rfl rfl (SysCall.respects_of_open rfl fun hnn => by
      rw [Process.sys_log, openedBy_use rfl rfl]
      exact h hnn)
  unfold setNonblocking
  split_ifs
  · exact (ReflTransGen.single h₁).tail h₂
  · exact .single h₁

variable (A p fd) in
/-- `setNonblocking` only makes calls. -/
theorem setNonblocking_calls (getfl setfl : Bool) :
    Calls p (setNonblocking p A fd getfl setfl).1 := by
  unfold setNonblocking
  split_ifs
  · exact (Calls.sys rfl rfl).trans (.sys rfl rfl)
  · exact .sys rfl rfl

/-- `setNonblocking` succeeds if the descriptor is valid and both calls do. -/
theorem setNonblocking_ok (getfl setfl : Bool) (h : 0 ≤ fd → openedBy p.log fd = some A) :
    (setNonblocking p A fd getfl setfl).2 = (decide (0 ≤ fd) && (getfl && setfl)) := by
  unfold setNonblocking
  rw [Process.answer_of_open h, Process.answer_of_open h]
  by_cases hfd : 0 ≤ fd <;> cases getfl <;> simp [hfd]

end Calls

end ProntoScript
