/-
# Who owns which descriptor

Descriptor numbers are recycled, and a socket keeps the number it got in one
field.  In an `Owned` process a number in that field is -1 or names a descriptor
the object opened and that is open; a `TCPSocket` in state CONNECTED has its
connection confirmed; and every system call so far was by the owner of its
descriptor.

The native code of an object consists of a few kinds of acts (`Act`): calls on
its own descriptor, `socket`, stores to its private data, adding and removing
its own registration.  Every act keeps `Owned` and leaves everything that belongs
to other objects as it was (`Act.owned`, `Act.frame`), whatever number `socket`
returns.
-/

import Mathlib.Logic.Relation
import ProntoScript.Socket.Process

namespace ProntoScript

/-- What may be stored for an object: descriptor -1, or one it opened, confirmed if
the object says it is connected. -/
structure ObjState.Fits (s : ObjState) (A : ObjId) (log : List SysCall) : Prop where
  held : ∀ fd, s.fd = some fd → fd = -1 ∨ openedBy log fd = some A
  confirmed : ∀ tcp, s.tcp? = some tcp → tcp.state = .connected → tcp.fd ≠ -1 →
    confirmed log tcp.fd = true

/-- **Ownership of descriptors.** -/
structure Owned (p : Process) : Prop where
  fits : ∀ o, (p.objs o).Fits o p.log
  disciplined : Ledger.Disciplined (ledger p.log)
  keys : ∀ fd ev, p.registry.lookup fd = some ev → 0 ≤ fd

/-- One thing the native code of an object does. -/
inductive Act (A : ObjId) : Process → Process → Prop
  | use {p : Process} {c : SysCall} (hobj : c.obj = A) (hopens : c.opens = false)
      (hcloses : c.closes = false) (hc : c.Respects p.log) : Act A p (p.sys c)
  | socket {p : Process} {n : ℤ} (hn : p.Fresh n) : Act A p (p.sys (.socket A n))
  | store {p : Process} {s : ObjState} (hs : s.Fits A p.log) : Act A p (p.setObj A s)
  | close {p : Process} {fd : ℤ} {s : ObjState} (hfd : p.fdOf A = some fd)
      (hs : ∀ n, s.fd = some n → n = -1) : Act A p ((p.sys (.close A fd)).setObj A s)
  | add {p q : Process} {fd : ℤ} {mask : PSFDSet} {func errfunc : PSSelectCallback} {timeout : ℤ}
      (hfd : openedBy p.log fd = some A)
      (hadd : p.psAddSelect fd mask A func errfunc timeout true = some q) : Act A p q
  | remove {p : Process} {fd : ℤ} (hfd : p.fdOf A = some fd) : Act A p (p.psRemoveSelect fd)

/-- What the native code of an object does from one step to the next. -/
abbrev Acts (A : ObjId) : Process → Process → Prop := Relation.ReflTransGen (Act A)

/-- Everything that belongs to objects other than `A` is as it was. -/
structure Frame (A : ObjId) (p p' : Process) : Prop where
  objs : ∀ B, B ≠ A → p'.objs B = p.objs B
  table : ∀ n B, B ≠ A → (openedBy p'.log n = some B ↔ openedBy p.log n = some B)
  confirmed : ∀ n B, B ≠ A → openedBy p.log n = some B → confirmed p'.log n = confirmed p.log n
  registry : ∀ n B, B ≠ A → openedBy p.log n = some B →
    p'.registry.lookup n = p.registry.lookup n
  entries : ∀ n ev, ev.obj ≠ A → p'.registry.lookup n = some ev → p.registry.lookup n = some ev

section

variable {A B : ObjId} {p p' q : Process} {s : ObjState} {c : SysCall} {n fd : ℤ} {o : ObjId}
  {log : List SysCall}

/-- An object without descriptor fits any table. -/
theorem ObjState.Fits.of_closed (h : ∀ n, s.fd = some n → n = -1) : s.Fits A log := by
  refine ⟨fun n hn => Or.inl (h n hn), fun tcp htcp _ hne => absurd (h tcp.fd ?_) hne⟩
  rw [ObjState.eq_of_tcp? htcp]
  rfl

/-- What fits goes on fitting while the descriptor stays open and confirmed. -/
theorem ObjState.Fits.mono {log' : List SysCall} (h : s.Fits A log)
    (hopen : ∀ n, s.fd = some n → openedBy log n = some A → openedBy log' n = some A)
    (hconf : ∀ n, s.fd = some n → openedBy log n = some A → ProntoScript.confirmed log n = true →
      ProntoScript.confirmed log' n = true) : s.Fits A log' := by
  refine ⟨fun n hn => (h.held n hn).imp_right (hopen n hn), fun tcp htcp hst hne => ?_⟩
  have hfd : s.fd = some tcp.fd := by
    rw [ObjState.eq_of_tcp? htcp]
    rfl
  exact hconf _ hfd ((h.held _ hfd).resolve_left hne) (h.confirmed tcp htcp hst hne)

namespace Owned

/-- No object holds anything in the beginning. -/
theorem start : Owned Process.start where
  fits _ := .of_closed fun _ h => by cases h
  disciplined := trivial
  keys fd ev h := by simp [Process.start] at h

variable {tcp : TCPSocket} {udp : UDPSocket}

/-- The descriptor of a live object. -/
theorem held (h : Owned p) (hfd : p.fdOf o = some fd) : fd = -1 ∨ openedBy p.log fd = some o :=
  (h.fits o).held fd hfd

/-- A `TCPSocket` holds no descriptor, or one that it opened. -/
theorem held_tcp (h : Owned p) (ht : p.tcp? o = some tcp) :
    tcp.fd = -1 ∨ openedBy p.log tcp.fd = some o :=
  h.held (Process.fdOf_of_tcp? ht)

/-- A `UDPSocket` holds no descriptor, or one that it opened. -/
theorem held_udp (h : Owned p) (hu : p.udp? o = some udp) :
    udp.fd = -1 ∨ openedBy p.log udp.fd = some o :=
  h.held (Process.fdOf_of_udp? hu)

/-- **Two live objects hold different descriptors.** -/
theorem obj_unique (h : Owned p) (hA : p.fdOf A = some fd) (hB : p.fdOf B = some fd)
    (hfd : fd ≠ -1) : A = B := by
  have h₁ := (h.held hA).resolve_left hfd
  have h₂ := (h.held hB).resolve_left hfd
  exact Option.some.inj (h₁.symm.trans h₂)

/-- A descriptor in the field of an object is -1 or a valid number. -/
theorem fd_nonneg (h : Owned p) (hfd : p.fdOf o = some fd) (hne : fd ≠ -1) : 0 ≤ fd :=
  openedBy_nonneg ((h.held hfd).resolve_left hne)

/-- A call on its own descriptor by an object respects the table. -/
theorem respects (h : Owned p) (hfd : p.fdOf c.obj = some c.fd)
    (hconf : c.transfers = true → confirmed p.log c.fd = true ∨ c.fd = -1) :
    c.Respects p.log := by
  intro hnn _
  refine ⟨(h.held hfd).resolve_left (by omega), fun ht => (hconf ht).resolve_right (by omega)⟩

end Owned

/-! ### Acts keep ownership -/

/-- A call that respects the table is allowed after it. -/
theorem disciplined_cons_of_respects (hd : Ledger.Disciplined (ledger log)) (hc : c.Respects log)
    (hopens : c.opens = false) : Ledger.Disciplined (ledger (c :: log)) := by
  rcases Int.lt_or_le c.fd 0 with hn | hn
  · rwa [ledger_of_neg hn]
  · rw [ledger_of_nonneg hn, Ledger.disciplined_cons]
    refine ⟨?_, hd⟩
    obtain ⟨hopen, hconf⟩ := hc hn hopens
    unfold SysCall.tableEntry
    rw [hopens, if_neg (by decide)]
    split_ifs
    · exact hopen
    · exact ⟨hopen, hconf⟩

/-- A fresh descriptor may be acquired. -/
theorem disciplined_cons_of_fresh (hd : Ledger.Disciplined (ledger p.log)) (hn : p.Fresh n) :
    Ledger.Disciplined (ledger (.socket A n :: p.log)) := by
  rcases hn with rfl | ⟨hnn, hfree⟩
  · have hneg : (SysCall.socket A (-1)).fd < 0 := by simp [SysCall.fd]
    rwa [ledger_of_neg hneg]
  · rw [ledger_of_nonneg (c := .socket A n) hnn, Ledger.disciplined_cons]
    exact ⟨hfree, hd⟩

/-- A fresh descriptor is none that somebody opened. -/
theorem Process.Fresh.ne_of_open (hn : p.Fresh n) (hfd : openedBy p.log fd = some o) :
    ¬ (0 ≤ n ∧ n = fd) := by
  rintro ⟨hnn, rfl⟩
  rcases hn with rfl | ⟨-, hfree⟩
  · omega
  · rw [hfree] at hfd
    cases hfd

/-- The objects after a store, if all of them fit. -/
theorem fits_setObj {log' : List SysCall} (hs : s.Fits A log')
    (h : ∀ B, B ≠ A → (p.objs B).Fits B log') (o : ObjId) :
    ((p.setObj A s).objs o).Fits o log' := by
  by_cases ho : o = A
  · subst ho
    rwa [Process.setObj_objs_self]
  · rw [Process.setObj_objs_ne _ ho]
    exact h o ho

/-- **Every act keeps ownership.** -/
theorem Act.owned (h : Owned p) (hact : Act A p p') : Owned p' := by
  cases hact with
  | @use c hobj hopens hcloses hc =>
      refine ⟨fun o => (h.fits o).mono (fun n _ hn => ?_) fun n _ _ hn => ?_,
        disciplined_cons_of_respects h.disciplined hc hopens, h.keys⟩
      · rwa [Process.sys_log, openedBy_use hopens hcloses]
      · rw [Process.sys_log, confirmed_use hopens hcloses, hn, Bool.or_true]
  | @socket n hn =>
      refine ⟨fun o => (h.fits o).mono (fun m _ hm => ?_) fun m _ hm hc => ?_,
        disciplined_cons_of_fresh h.disciplined hn, h.keys⟩
      · rwa [Process.sys_log, openedBy_socket, if_neg (hn.ne_of_open hm)]
      · rwa [Process.sys_log, confirmed_socket, if_neg (hn.ne_of_open hm)]
  | @store s hs => exact ⟨fits_setObj hs fun B _ => h.fits B, h.disciplined, h.keys⟩
  | @close fd s hfd hs =>
      have hother : ∀ B, B ≠ A → ∀ m, openedBy p.log m = some B → ¬ (0 ≤ fd ∧ fd = m) := by
        rintro B hB m hm ⟨hnn, rfl⟩
        have := (h.held hfd).resolve_left (by omega)
        exact hB (Option.some.inj (hm.symm.trans this))
      refine ⟨fits_setObj (.of_closed hs) fun B hB => (h.fits B).mono (fun m _ hm => ?_)
        fun m _ hm hc => ?_, disciplined_cons_of_respects h.disciplined ?_ rfl, h.keys⟩
      · rwa [Process.setObj_log, Process.sys_log, openedBy_close, if_neg (hother B hB m hm)]
      · rwa [Process.setObj_log, Process.sys_log, confirmed_close, if_neg (hother B hB m hm)]
      · exact h.respects hfd fun ht => by cases ht
  | @add q fd mask func errfunc timeout hfd hadd =>
      obtain rfl := Option.some.inj hadd
      refine ⟨h.fits, h.disciplined, fun n ev' hn => ?_⟩
      by_cases hnf : n = fd
      · subst hnf
        exact openedBy_nonneg hfd
      · rw [AList.lookup_insert_ne hnf] at hn
        exact h.keys n ev' hn
  | @remove fd hfd =>
      refine ⟨h.fits, h.disciplined, fun n ev hn => ?_⟩
      by_cases hnf : n = fd
      · subst hnf
        rw [Process.psRemoveSelect_registry, AList.lookup_erase] at hn
        cases hn
      · rw [Process.psRemoveSelect_registry, AList.lookup_erase_ne hnf] at hn
        exact h.keys n ev hn

/-! ### Acts leave other objects alone -/

namespace Frame

/-- Nothing done leaves the other objects alone. -/
theorem refl (A : ObjId) (p : Process) : Frame A p p where
  objs _ _ := rfl
  table _ _ _ := Iff.rfl
  confirmed _ _ _ _ := rfl
  registry _ _ _ _ := rfl
  entries _ _ _ h := h

/-- What two acts leave alone is left alone. -/
theorem trans (h₁ : Frame A p q) (h₂ : Frame A q p') : Frame A p p' where
  objs B hB := (h₂.objs B hB).trans (h₁.objs B hB)
  table n B hB := (h₂.table n B hB).trans (h₁.table n B hB)
  confirmed n B hB hn :=
    (h₂.confirmed n B hB ((h₁.table n B hB).2 hn)).trans (h₁.confirmed n B hB hn)
  registry n B hB hn :=
    (h₂.registry n B hB ((h₁.table n B hB).2 hn)).trans (h₁.registry n B hB hn)
  entries n ev hev hn := h₁.entries n ev hev (h₂.entries n ev hev hn)

end Frame

/-- **Every act leaves the other objects, their descriptors and their registrations
as they were.** -/
theorem Act.frame (h : Owned p) (hact : Act A p p') : Frame A p p' := by
  cases hact with
  | @use c hobj hopens hcloses hc =>
      refine ⟨fun _ _ => rfl, fun n B hB => ?_, fun n B hB hn => ?_, fun _ _ _ _ => rfl,
        fun _ _ _ hn => hn⟩
      · rw [Process.sys_log, openedBy_use hopens hcloses]
      · rw [Process.sys_log, confirmed_use hopens hcloses, decide_eq_false, Bool.false_and,
          Bool.false_or]
        rintro ⟨hnn, rfl⟩
        have hA := (hc hnn hopens).1
        rw [hobj] at hA
        exact hB (Option.some.inj (hn.symm.trans hA))
  | @socket n hn =>
      refine ⟨fun _ _ => rfl, fun m B hB => ?_, fun m B hB hm => ?_, fun _ _ _ _ => rfl,
        fun _ _ _ hm => hm⟩
      · rw [Process.sys_log, openedBy_socket]
        split_ifs with hm
        · refine ⟨fun h' => absurd (Option.some.inj h').symm hB, fun h' => ?_⟩
          exact absurd hm (hn.ne_of_open h')
        · rfl
      · rw [Process.sys_log, confirmed_socket, if_neg (hn.ne_of_open hm)]
  | @store s hs =>
      exact ⟨fun B hB => Process.setObj_objs_ne _ hB, fun _ _ _ => Iff.rfl, fun _ _ _ _ => rfl,
        fun _ _ _ _ => rfl, fun _ _ _ hn => hn⟩
  | @close fd s hfd hs =>
      have hother : ∀ B, B ≠ A → ∀ m, openedBy p.log m = some B → ¬ (0 ≤ fd ∧ fd = m) := by
        rintro B hB m hm ⟨hnn, rfl⟩
        have := (h.held hfd).resolve_left (by omega)
        exact hB (Option.some.inj (hm.symm.trans this))
      refine ⟨fun B hB => Process.setObj_objs_ne _ hB, fun m B hB => ?_, fun m B hB hm => ?_,
        fun _ _ _ _ => rfl, fun _ _ _ hm => hm⟩
      · rw [Process.setObj_log, Process.sys_log, openedBy_close]
        split_ifs with hm
        · refine ⟨fun h' => ?_, fun h' => absurd hm (hother B hB m h')⟩
          cases h'
        · rfl
      · rw [Process.setObj_log, Process.sys_log, confirmed_close, if_neg (hother B hB m hm)]
  | @add q fd mask func errfunc timeout hfd hadd =>
      obtain rfl := Option.some.inj hadd
      refine ⟨fun _ _ => rfl, fun _ _ _ => Iff.rfl, fun _ _ _ _ => rfl, fun m B hB hm => ?_,
        fun m ev' hev hm => ?_⟩
      · refine AList.lookup_insert_ne ?_
        rintro rfl
        exact hB (Option.some.inj (hm.symm.trans hfd))
      · by_cases hmf : m = fd
        · subst hmf
          rw [AList.lookup_insert] at hm
          exact absurd (Option.some.inj hm ▸ rfl) hev
        · rwa [AList.lookup_insert_ne hmf] at hm
  | @remove fd hfd =>
      refine ⟨fun _ _ => rfl, fun _ _ _ => Iff.rfl, fun _ _ _ _ => rfl, fun m B hB hm => ?_,
        fun m ev hev hm => ?_⟩
      · refine AList.lookup_erase_ne ?_
        rintro rfl
        have hA := (h.held hfd).resolve_left (by have := openedBy_nonneg hm; omega)
        exact hB (Option.some.inj (hm.symm.trans hA))
      · by_cases hmf : m = fd
        · subst hmf
          rw [Process.psRemoveSelect_registry, AList.lookup_erase] at hm
          cases hm
        · rwa [Process.psRemoveSelect_registry, AList.lookup_erase_ne hmf] at hm

namespace Acts

/-- **Acts on one's own descriptor keep the ownership** of all descriptors. -/
theorem owned (h : Owned p) (hacts : Acts A p p') : Owned p' := by
  induction hacts with
  | refl => exact h
  | tail _ hact ih => exact hact.owned ih

/-- **Acts on one's own descriptor leave the other objects alone**, with their
registrations. -/
theorem frame (h : Owned p) (hacts : Acts A p p') : Frame A p p' := by
  induction hacts with
  | refl => exact .refl A p
  | tail hacts hact ih => exact ih.trans (hact.frame (owned h hacts))

end Acts
end

end ProntoScript
