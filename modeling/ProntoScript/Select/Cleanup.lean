/-
# The copies of a pass and the loops that release them

`js/src/ext/psselect.c`, lines 246-298 and 319-334.  A pass copies events into nodes that
it gets from `malloc` and links into three lists, and three loops at its end hand nodes to
`free`.  The heap keeps which nodes are allocated; what a node held stays readable while
it is, and a node that was released may hold anything (`stale`).  Between the copying and
the loops run the callbacks, which may do anything to the heap.

The loops free the node after the one they look at and look at that node next.  So every
node they release is read once more (`cleanup_reads`), and the first node of a list is
not among those they mean to release.
-/

import Mathlib.Data.Finset.Lattice.Fold
import Mathlib.Order.Lattice.Nat
import ProntoScript.Foundation.LinkedList
import ProntoScript.Select.Dispatch

namespace ProntoScript

open LinkedList

/-- The nodes of the copies and which of them are allocated. -/
structure CopyHeap where
  mem : ℕ → Cell EventCopy
  allocated : Finset ℕ

/-- What `malloc` answers: a node that is not allocated. -/
structure Malloc where
  malloc : CopyHeap → ℕ
  fresh (h : CopyHeap) : malloc h ∉ h.allocated

/-- The node above all those that are allocated. -/
def Malloc.above : Malloc where
  malloc h := h.allocated.sup id + 1
  fresh h ha := by
    have hle : h.allocated.sup id + 1 ≤ h.allocated.sup id := Finset.le_sup (f := id) ha
    omega

/-- A copy in a new node in front of a list: the heap and the list.  `copy->prev` is not
written. -/
def Malloc.copy (m : Malloc) (h : CopyHeap) (hd : Option ℕ) (c : EventCopy) :
    CopyHeap × Option ℕ :=
  let copy := m.malloc h
  (⟨Function.update h.mem copy ⟨c, (h.mem copy).prev, hd⟩, insert copy h.allocated⟩, some copy)

/-- The heap and the heads of the three lists. -/
structure CopyState where
  heap : CopyHeap
  triggered : Option ℕ
  timedout : Option ℕ
  errored : Option ℕ

namespace CopyState

/-- A copy into `triggered`. -/
def addTriggered (m : Malloc) (s : CopyState) (c : EventCopy) : CopyState :=
  let q := m.copy s.heap s.triggered c
  { s with heap := q.1, triggered := q.2 }

/-- A copy into `timedout`. -/
def addTimedout (m : Malloc) (s : CopyState) (c : EventCopy) : CopyState :=
  let q := m.copy s.heap s.timedout c
  { s with heap := q.1, timedout := q.2 }

/-- A copy into `errored`. -/
def addErrored (m : Malloc) (s : CopyState) (c : EventCopy) : CopyState :=
  let q := m.copy s.heap s.errored c
  { s with heap := q.1, errored := q.2 }

/-- The body of the loop that copies the events, after the update of the timeout. -/
def add (m : Malloc) (s : CopyState) (r : SelectResult) (fd : ℤ) (ev : PSSelectEvent) :
    CopyState :=
  let s := if r.triggers fd then s.addTriggered m (.of fd ev) else s
  let s := if ev.expired then s.addTimedout m (.of fd ev) else s
  if r.errs fd then s.addErrored m (.of fd ev) else s

end CopyState

/-- The loop that copies the events. -/
def copyLoop (m : Malloc) (h : CopyHeap) (reg : Registry) (r : SelectResult) : CopyState :=
  reg.entries.foldl (fun s e => s.add m r e.1 e.2) ⟨h, none, none, none⟩

/-- What a cleanup loop does to a node: it reads its `next`, or it hands it to `free`. -/
inductive Access
  | read (ev : ℕ)
  | free (p : Option ℕ)
deriving DecidableEq

namespace CopyHeap

/-- `ev->next`. -/
def next (h : CopyHeap) (stale : ℕ → Option ℕ) (ev : ℕ) : Option ℕ :=
  if ev ∈ h.allocated then (h.mem ev).next else stale ev

/-- `free(p)`; freeing `NULL` does nothing. -/
def free (h : CopyHeap) : Option ℕ → CopyHeap
  | some a => { h with allocated := h.allocated.erase a }
  | none => h

end CopyHeap

/-- A cleanup loop from `ev` on, with a bound on its rounds: the heap it leaves and what
it did. Source: `ps_HandleSelect`, lines 319-334 of `js/src/ext/psselect.c`. -/
def cleanup (stale : ℕ → Option ℕ) : ℕ → Option ℕ → CopyHeap → Option (CopyHeap × List Access)
  | _, none, h => some (h, [])
  | 0, some _, _ => none
  | n + 1, some ev, h =>
      let next := h.next stale ev
      (cleanup stale n next (h.free next)).map fun q => (q.1, .read ev :: .free next :: q.2)

/-- The three cleanup loops, one after the other. -/
def cleanupAll (stale : ℕ → Option ℕ) (fuel : ℕ) (s : CopyState) (h : CopyHeap) :
    Option (CopyHeap × List Access) := do
  let q₁ ← cleanup stale fuel s.triggered h
  let q₂ ← cleanup stale fuel s.timedout q₁.1
  let q₃ ← cleanup stale fuel s.errored q₂.1
  return (q₃.1, q₁.2 ++ q₂.2 ++ q₃.2)

/-- A node was handed to `free` once and not read afterwards. -/
def ReleasedOnce (t : List Access) (a : ℕ) : Prop :=
  t.count (.free (some a)) = 1 ∧ ¬[.free (some a), .read a].Sublist t

/-! ### The lists of copies -/

/-- The walk from `hd` meets the allocated nodes `nodes`, which hold the copies `l`. -/
structure CopyHeap.Lists (h : CopyHeap) (hd : Option ℕ) (nodes : List ℕ) (l : List EventCopy) :
    Prop where
  walks : ∃ n, walk h.mem n hd = some nodes
  data : nodes.map (fun a => (h.mem a).data) = l
  allocated : ∀ a ∈ nodes, a ∈ h.allocated

/-- The three lists hold the copies, in nodes of their own that were not allocated before. -/
structure CopyState.Built (before : CopyHeap) (s : CopyState) (l : CopyLists) (t o e : List ℕ) :
    Prop where
  triggered : s.heap.Lists s.triggered t l.triggered
  timedout : s.heap.Lists s.timedout o l.timedout
  errored : s.heap.Lists s.errored e l.errored
  nodup : (t ++ o ++ e).Nodup
  allocated (a : ℕ) : a ∈ s.heap.allocated ↔ a ∈ before.allocated ∨ a ∈ t ++ o ++ e
  fresh : ∀ a ∈ t ++ o ++ e, a ∉ before.allocated

section Built

variable {m : Malloc} {before h : CopyHeap} {s : CopyState} {l : CopyLists} {hd hd' : Option ℕ}
  {nodes t o e : List ℕ} {cs : List EventCopy} {c : EventCopy} {reg : Registry} {r : SelectResult}

/-- A list without a first node is empty, and only that one. -/
theorem CopyHeap.Lists.none_iff (hl : h.Lists hd nodes cs) : hd = none ↔ cs = [] := by
  obtain ⟨⟨n, hwalk⟩, rfl, -⟩ := hl
  cases hd with
  | none =>
      rw [walk_none] at hwalk
      cases hwalk
      simp
  | some a =>
      obtain ⟨k, l', -, rfl, -⟩ := walk_some hwalk
      simp

/-- The nodes are as many as the copies. -/
theorem CopyHeap.Lists.nil_iff (hl : h.Lists hd nodes cs) : nodes = [] ↔ cs = [] := by
  rw [← hl.data, List.map_eq_nil_iff]

variable (m hd' c) in
/-- A new copy leaves the other lists alone. -/
theorem CopyHeap.Lists.other (hl : h.Lists hd nodes cs) :
    (m.copy h hd' c).1.Lists hd nodes cs := by
  have hmem : ∀ a ∈ nodes, (m.copy h hd' c).1.mem a = h.mem a := by
    intro a ha
    refine Function.update_of_ne ?_ _ _
    rintro rfl
    exact m.fresh h (hl.allocated _ ha)
  obtain ⟨n, hwalk⟩ := hl.walks
  refine ⟨⟨n, walk_frame hwalk fun a ha => by rw [hmem a ha]⟩, ?_,
    fun a ha => Finset.mem_insert_of_mem (hl.allocated a ha)⟩
  rw [← hl.data]
  exact List.map_congr_left fun a ha => by rw [hmem a ha]

/-- A new copy stands in front of its list. -/
theorem CopyHeap.Lists.copy (hl : h.Lists hd nodes cs) :
    (m.copy h hd c).1.Lists (m.copy h hd c).2 (m.malloc h :: nodes) (c :: cs) := by
  have hsame : (m.copy h hd c).1.mem (m.malloc h) = ⟨c, (h.mem (m.malloc h)).prev, hd⟩ :=
    Function.update_self ..
  obtain ⟨⟨n, hwalk⟩, hdata, halloc⟩ := hl.other m hd c
  refine ⟨⟨n + 1, ?_⟩, ?_, ?_⟩
  · show walk _ (n + 1) (some (m.malloc h)) = _
    rw [walk_succ, hsame]
    exact congrArg (Option.map _) hwalk
  · rw [List.map_cons, hsame, hdata]
  · rintro a (_ | ⟨_, ha⟩)
    · exact Finset.mem_insert_self ..
    · exact halloc a ha

/-- What is allocated behind a new copy. -/
theorem mem_allocated_copy {a : ℕ} :
    a ∈ (m.copy h hd c).1.allocated ↔ a = m.malloc h ∨ a ∈ h.allocated := Finset.mem_insert

namespace CopyState.Built

/-- The node of a new copy is in none of the lists and was not allocated before. -/
theorem malloc_fresh (hb : s.Built before l t o e) :
    m.malloc s.heap ∉ t ++ o ++ e ∧ m.malloc s.heap ∉ before.allocated := by
  have hfresh := m.fresh s.heap
  rw [hb.allocated, not_or] at hfresh
  exact hfresh.symm

/-- A copy into `triggered`. -/
theorem addTriggered (hb : s.Built before l t o e) :
    (s.addTriggered m c).Built before { l with triggered := c :: l.triggered }
      (m.malloc s.heap :: t) o e := by
  obtain ⟨hnot, hbefore⟩ := hb.malloc_fresh (m := m)
  refine ⟨hb.triggered.copy, hb.timedout.other _ _ _, hb.errored.other _ _ _,
    List.nodup_cons.2 ⟨hnot, hb.nodup⟩, fun a => ?_, fun a ha => ?_⟩
  · show a ∈ (m.copy s.heap s.triggered c).1.allocated ↔ _
    rw [mem_allocated_copy, hb.allocated]
    simp only [List.cons_append, List.mem_cons]
    exact or_left_comm
  · rcases List.mem_cons.1 ha with rfl | ha
    · exact hbefore
    · exact hb.fresh a ha

/-- A copy into `timedout`. -/
theorem addTimedout (hb : s.Built before l t o e) :
    (s.addTimedout m c).Built before { l with timedout := c :: l.timedout }
      t (m.malloc s.heap :: o) e := by
  obtain ⟨hnot, hbefore⟩ := hb.malloc_fresh (m := m)
  have hperm : (t ++ m.malloc s.heap :: o ++ e).Perm (m.malloc s.heap :: (t ++ o ++ e)) := by
    rw [List.append_assoc, List.append_assoc]
    exact List.perm_middle
  refine ⟨hb.triggered.other _ _ _, hb.timedout.copy, hb.errored.other _ _ _,
    hperm.nodup_iff.2 (List.nodup_cons.2 ⟨hnot, hb.nodup⟩), fun a => ?_, fun a ha => ?_⟩
  · show a ∈ (m.copy s.heap s.timedout c).1.allocated ↔ _
    rw [mem_allocated_copy, hb.allocated, hperm.mem_iff, List.mem_cons]
    exact or_left_comm
  · rcases List.mem_cons.1 (hperm.mem_iff.1 ha) with rfl | ha
    · exact hbefore
    · exact hb.fresh a ha

/-- A copy into `errored`. -/
theorem addErrored (hb : s.Built before l t o e) :
    (s.addErrored m c).Built before { l with errored := c :: l.errored }
      t o (m.malloc s.heap :: e) := by
  obtain ⟨hnot, hbefore⟩ := hb.malloc_fresh (m := m)
  have hperm : (t ++ o ++ m.malloc s.heap :: e).Perm (m.malloc s.heap :: (t ++ o ++ e)) :=
    List.perm_middle
  refine ⟨hb.triggered.other _ _ _, hb.timedout.other _ _ _, hb.errored.copy,
    hperm.nodup_iff.2 (List.nodup_cons.2 ⟨hnot, hb.nodup⟩), fun a => ?_, fun a ha => ?_⟩
  · show a ∈ (m.copy s.heap s.errored c).1.allocated ↔ _
    rw [mem_allocated_copy, hb.allocated, hperm.mem_iff, List.mem_cons]
    exact or_left_comm
  · rcases List.mem_cons.1 (hperm.mem_iff.1 ha) with rfl | ha
    · exact hbefore
    · exact hb.fresh a ha

/-- The body of the loop that copies the events. -/
theorem add (fd : ℤ) (ev : PSSelectEvent) (hb : s.Built before l t o e) :
    ∃ t' o' e', (s.add m r fd ev).Built before (l.add r fd ev) t' o' e' := by
  unfold CopyState.add CopyLists.add
  split_ifs
  · exact ⟨_, _, _, hb.addTriggered.addTimedout.addErrored⟩
  · exact ⟨_, _, _, hb.addTriggered.addTimedout⟩
  · exact ⟨_, _, _, hb.addTriggered.addErrored⟩
  · exact ⟨_, _, _, hb.addTriggered⟩
  · exact ⟨_, _, _, hb.addTimedout.addErrored⟩
  · exact ⟨_, _, _, hb.addTimedout⟩
  · exact ⟨_, _, _, hb.addErrored⟩
  · exact ⟨_, _, _, hb⟩

end CopyState.Built

variable (m before reg r) in
/-- **The loop over the events builds the three lists of copies**, each node of which is
new and in one list only. -/
theorem copyLoop_built :
    ∃ t o e, (copyLoop m before reg r).Built before (copyLists reg r) t o e := by
  suffices hall : ∀ (es : List (Σ _ : ℤ, PSSelectEvent)) (s : CopyState) (l : CopyLists)
      (t o e : List ℕ), s.Built before l t o e →
      ∃ t' o' e', (es.foldl (fun s e => s.add m r e.1 e.2) s).Built before
        (es.foldl (fun l e => l.add r e.1 e.2) l) t' o' e' by
    refine hall reg.entries ⟨before, none, none, none⟩ ⟨[], [], []⟩ [] [] [] ?_
    have hnil : before.Lists none [] [] := ⟨⟨0, rfl⟩, rfl, by simp⟩
    exact ⟨hnil, hnil, hnil, List.nodup_nil, by simp, by simp⟩
  intro es
  induction es with
  | nil => exact fun s l t o e hb => ⟨t, o, e, hb⟩
  | cons ev es ih =>
      intro s l t o e hb
      obtain ⟨t', o', e', hb'⟩ := hb.add (m := m) (r := r) ev.1 ev.2
      exact ih _ _ _ _ _ hb'

end Built

/-! ### The loops -/

/-- A cleanup loop ends and releases each node of its list once, not to read it again; the
nodes are those that a walk meets in the heap the copying left. -/
def ListReleased (stale : ℕ → Option ℕ) (s : CopyState) (h : CopyHeap) (hd : Option ℕ) : Prop :=
  ∃ fuel q, cleanup stale fuel hd h = some q ∧
    ∀ a, Reaches s.heap.mem hd a → ReleasedOnce q.2 a

/-- The three loops end and release the nodes allocated since `before`, each once and not
to be read again, and no others. -/
def PassReleased (stale : ℕ → Option ℕ) (before : CopyHeap) (s : CopyState) (h : CopyHeap) :
    Prop :=
  ∃ fuel q, cleanupAll stale fuel s h = some q ∧
    ∀ a, (a ∈ s.heap.allocated \ before.allocated → ReleasedOnce q.2 a) ∧
      (a ∉ s.heap.allocated \ before.allocated → .free (some a) ∉ q.2)

section Loops

variable {stale : ℕ → Option ℕ} {n fuel a : ℕ} {ev hd : Option ℕ} {s : CopyState}
  {before h : CopyHeap} {q : CopyHeap × List Access}

@[simp] theorem cleanup_none : cleanup stale n none h = some (h, []) := by cases n <;> rfl

/-- **A loop reads each node it has handed to `free`**: the node freed in one round is the
one that the next round begins with. -/
theorem cleanup_reads (hq : cleanup stale n ev h = some q) (ha : .free (some a) ∈ q.2) :
    [.free (some a), .read a].Sublist q.2 := by
  induction n generalizing ev h q with
  | zero =>
      cases ev with
      | none => cases hq; simp at ha
      | some ev => cases hq
  | succ n ih =>
      cases ev with
      | none => cases hq; simp at ha
      | some ev =>
          obtain ⟨q', hq', rfl⟩ := Option.map_eq_some_iff.1 hq
          simp only [List.mem_cons, reduceCtorEq, false_or] at ha
          rcases ha with hnext | ha
          · -- the node after `ev`: the rest of the loop begins by reading it
            rw [← Access.free.inj hnext] at hq' ⊢
            cases n with
            | zero => cases hq'
            | succ n =>
                obtain ⟨q'', -, rfl⟩ := Option.map_eq_some_iff.1 hq'
                exact .cons _ (.cons_cons _ (.cons_cons _ (List.nil_sublist _)))
          · exact .cons _ (.cons _ (ih hq' ha))

/-- No node is released as it is meant to be. -/
theorem not_releasedOnce {t : List Access}
    (ht : .free (some a) ∈ t → [.free (some a), .read a].Sublist t) : ¬ReleasedOnce t a := by
  rintro ⟨hcount, hread⟩
  exact hread (ht (List.count_pos_iff.1 (by omega)))

/-- What the three loops do, each on its own. -/
theorem cleanupAll_parts (hq : cleanupAll stale fuel s h = some q) :
    ∃ q₁ q₂ q₃, cleanup stale fuel s.triggered h = some q₁ ∧
      cleanup stale fuel s.timedout q₁.1 = some q₂ ∧
      cleanup stale fuel s.errored q₂.1 = some q₃ ∧ q = (q₃.1, q₁.2 ++ q₂.2 ++ q₃.2) := by
  obtain ⟨q₁, h₁, hq⟩ := Option.bind_eq_some_iff.1 hq
  obtain ⟨q₂, h₂, hq⟩ := Option.bind_eq_some_iff.1 hq
  obtain ⟨q₃, h₃, hq⟩ := Option.bind_eq_some_iff.1 hq
  exact ⟨q₁, q₂, q₃, h₁, h₂, h₃, (Option.some.inj hq).symm⟩

/-- The three loops read each node they have handed to `free`. -/
theorem cleanupAll_reads (hq : cleanupAll stale fuel s h = some q)
    (ha : .free (some a) ∈ q.2) : [.free (some a), .read a].Sublist q.2 := by
  obtain ⟨q₁, q₂, q₃, h₁, h₂, h₃, rfl⟩ := cleanupAll_parts hq
  rcases List.mem_append.1 ha with ha | ha
  · rcases List.mem_append.1 ha with ha | ha
    · exact ((cleanup_reads h₁ ha).trans (List.sublist_append_left ..)).trans
        (List.sublist_append_left ..)
    · exact ((cleanup_reads h₂ ha).trans (List.sublist_append_right ..)).trans
        (List.sublist_append_left ..)
  · exact (cleanup_reads h₃ ha).trans (List.sublist_append_right ..)

/-- A loop does what it is meant to do over no list but the empty one. -/
theorem listReleased_iff : ListReleased stale s h hd ↔ hd = none := by
  constructor
  · rintro ⟨fuel, q, hq, hall⟩
    cases hd with
    | none => rfl
    | some a => exact (not_releasedOnce (cleanup_reads hq) (hall a (.here a))).elim
  · rintro rfl
    exact ⟨0, (h, []), cleanup_none, fun a hr => by cases hr⟩

/-- The three loops do what they are meant to do where nothing was allocated, and only
there. -/
theorem passReleased_iff {t o e : List ℕ} {l : CopyLists} (hb : s.Built before l t o e) :
    PassReleased stale before s h ↔ t = [] ∧ o = [] ∧ e = [] := by
  constructor
  · rintro ⟨fuel, q, hq, hall⟩
    have hnone : ∀ a, a ∉ t ++ o ++ e := by
      intro a ha
      have hnew : a ∈ s.heap.allocated \ before.allocated :=
        Finset.mem_sdiff.2 ⟨(hb.allocated a).2 (.inr ha), hb.fresh a ha⟩
      exact not_releasedOnce (cleanupAll_reads hq) ((hall a).1 hnew)
    have hnil := List.eq_nil_iff_forall_not_mem.2 hnone
    simpa [and_assoc] using hnil
  · rintro ⟨rfl, rfl, rfl⟩
    have h₁ := hb.triggered.none_iff.2 (hb.triggered.nil_iff.1 rfl)
    have h₂ := hb.timedout.none_iff.2 (hb.timedout.nil_iff.1 rfl)
    have h₃ := hb.errored.none_iff.2 (hb.errored.nil_iff.1 rfl)
    have hq : cleanupAll stale 0 s h = some (h, []) := by
      simp [cleanupAll, h₁, h₂, h₃]
    refine ⟨0, _, hq, fun a => ⟨fun hnew => ?_, fun _ => List.not_mem_nil⟩⟩
    obtain ⟨hmem, hnot⟩ := Finset.mem_sdiff.1 hnew
    rcases (hb.allocated a).1 hmem with hold | hin
    · exact (hnot hold).elim
    · simp at hin

end Loops

/-! ### What a pass releases -/

/-- **A cleanup loop releases its list exactly if the list is empty, and a pass the nodes
it allocated exactly if it copied no event**, whatever was in the heap before the pass,
whatever the callbacks left in it and whatever a released node reads as: each round
releases the next node and goes on with it.  Source: `ps_HandleSelect`, the copies
(lines 252-298) and the three loops (lines 319-334) of `js/src/ext/psselect.c`. -/
theorem cleanup_releases_iff (m : Malloc) (stale : ℕ → Option ℕ) (before h : CopyHeap)
    (reg : Registry) (r : SelectResult) :
    let s := copyLoop m before (reg.updateTimeouts r.duration) r
    let l := copyLists (reg.updateTimeouts r.duration) r
    (ListReleased stale s h s.triggered ↔ l.triggered = []) ∧
      (ListReleased stale s h s.timedout ↔ l.timedout = []) ∧
      (ListReleased stale s h s.errored ↔ l.errored = []) ∧
      (PassReleased stale before s h ↔ l.triggered = [] ∧ l.timedout = [] ∧ l.errored = []) := by
  intro s l
  obtain ⟨t, o, e, hb⟩ := copyLoop_built m before (reg.updateTimeouts r.duration) r
  refine ⟨?_, ?_, ?_, ?_⟩
  · rw [listReleased_iff]
    exact hb.triggered.none_iff
  · rw [listReleased_iff]
    exact hb.timedout.none_iff
  · rw [listReleased_iff]
    exact hb.errored.none_iff
  · rw [passReleased_iff hb, hb.triggered.nil_iff, hb.timedout.nil_iff, hb.errored.nil_iff]

/-- A heap with nothing in it. -/
def CopyHeap.empty : CopyHeap where
  mem _ := ⟨⟨0, 0, .tcpSocketSelectCallback, .tcpSocketSelectErrorCallback, ⟨0, 0⟩⟩, none, none⟩
  allocated := ∅

/-- What `select` returns when the only descriptor it watches can be written to. -/
def onlyReady : SelectResult := ⟨1, [], [3], [], ⟨0, 0⟩, ⟨0, 0⟩⟩

/-- **One socket that is ready**: its copy is never released. -/
theorem cleanup_leaks_copy : ¬∀ (m : Malloc) (stale : ℕ → Option ℕ) (before h : CopyHeap)
    (reg : Registry) (r : SelectResult),
    let s := copyLoop m before (reg.updateTimeouts r.duration) r
    (ListReleased stale s h s.triggered ∧ ListReleased stale s h s.timedout ∧
      ListReleased stale s h s.errored) ∧ PassReleased stale before s h := by
  intro hclaim
  let s := copyLoop .above .empty ((onlyEvent (-1)).updateTimeouts onlyReady.duration) onlyReady
  have htriggered := (hclaim .above (fun _ => none) .empty s.heap (onlyEvent (-1)) onlyReady).1.1
  rw [listReleased_iff] at htriggered
  cases htriggered

end ProntoScript
