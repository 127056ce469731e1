/-
# Passes within passes

`ps_HandleSelect` (`js/src/ext/psselect.c`, lines 252-317) under any callbacks: between
two calls of a pass the list may be changed by `ps_AddSelect` and `ps_RemoveSelect`, and
further passes may be made (`eval`, `System.include` and JSUnit's `events()` handle
events from within a handler).  The copies a pass has still to call carry how often the
registration of their descriptor had been removed or replaced when they were made
(`Snapshot`).

A copy is called whatever became of its registration, and a pass copies whatever is
linked, also what `ps_RemoveSelect` released.  Where every removal finds its descriptor
at the head of the list (`EventLoop.HeadStep`), the callbacks called are those of events
still registered exactly where no registration is removed or replaced while a copy of
it is waiting (`EventLoop.calls_registered`).
-/

import ProntoScript.Foundation.Snapshot
import ProntoScript.Foundation.Transition
import ProntoScript.Select.Walk

namespace ProntoScript

open Transition (Run Guarded Obeying)

/-- The list of events, and the copies the passes have still to call. -/
structure EventLoop where
  heap : SelectHeap
  copies : Snapshot.State ℤ Dispatch

/-- What can happen next: a call of `ps_AddSelect` or `ps_RemoveSelect`, a pass with what
`select` answers, the call of a copy, or the end of the pass. -/
inductive LoopLabel
  | call (c : SelectCall)
  | handleSelect (a : SelectAnswer)
  | dispatch
  | passed

/-- The descriptor whose registration is removed or replaced. -/
def LoopLabel.removes : LoopLabel → Option ℤ
  | call c => c.removes
  | handleSelect _ | dispatch | passed => none

namespace EventLoop

/-- No event is registered. -/
def start : EventLoop := ⟨.start, ⟨fun _ => 0, []⟩⟩

/-- The copies once the registration of a descriptor, if any, was removed or replaced. -/
def touched (copies : Snapshot.State ℤ Dispatch) : Option ℤ → Snapshot.State ℤ Dispatch
  | some fd => copies.touch fd
  | none => copies

/-- The steps: a call of `ps_AddSelect` or `ps_RemoveSelect`, a pass over no events, a pass
up to its first call, the call of the next copy, the end of a pass. -/
inductive Step : EventLoop → LoopLabel → EventLoop → Prop
  | call {s : EventLoop} {c : SelectCall} {heap : SelectHeap} (hans : c.Answered s.heap) (fuel : ℕ)
      (hex : c.exec fuel s.heap = some heap) :
      Step s (.call c) ⟨heap, touched s.copies c.removes⟩
  | idle {s : EventLoop} {a : SelectAnswer} (fuel : ℕ)
      (hpass : s.heap.psHandleSelect fuel a = some none) : Step s (.handleSelect a) s
  | pass {s : EventLoop} {a : SelectAnswer} {heap : SelectHeap} {pending : List Dispatch} (fuel : ℕ)
      (hpass : s.heap.psHandleSelect fuel a = some (some (heap, pending))) :
      Step s (.handleSelect a) ⟨heap, s.copies.take Dispatch.fd pending⟩
  | dispatch {s : EventLoop} {c : Dispatch × ℕ} {copies : Snapshot.State ℤ Dispatch}
      (hnext : s.copies.next = some (c, copies)) : Step s .dispatch ⟨s.heap, copies⟩
  | passed {s : EventLoop} {copies : Snapshot.State ℤ Dispatch}
      (hfinish : s.copies.finish = some copies) : Step s .passed ⟨s.heap, copies⟩

/-- A removal finds its descriptor at the head of the list, or nowhere. -/
def HitsHead (s : EventLoop) : LoopLabel → Prop
  | .call c => c.FindsHead s.heap
  | _ => True

/-- The steps all of whose removals find their descriptor at the head of the list, or
nowhere, so that nothing released stays linked. -/
def HeadStep : EventLoop → LoopLabel → EventLoop → Prop := Guarded HitsHead Step

/-- The registration a copy was made of is still there: not removed or replaced since, and
linked and not released, with the object and the callback of the copy. -/
structure Registered (s : EventLoop) (c : Dispatch × ℕ) : Prop where
  current : s.copies.Current Dispatch.fd c
  event : ∃ ev, s.heap.Has c.1.fd ev ∧ ev.obj = c.1.obj ∧
    (c.1.callback = ev.func ∨ c.1.callback = ev.errfunc)

/-- A callback is called for a registration that is still there, and not for one that was
removed or replaced since it was copied. -/
def CallsRegistered (s : EventLoop) (l : LoopLabel) (_ : EventLoop) : Prop :=
  l = .dispatch → ∀ c copies, s.copies.next = some (c, copies) → s.Registered c

/-- No registration is removed, or replaced by a call of `ps_AddSelect` for the same
descriptor, while a pass has still to call a copy of it. -/
def KeepsPending (s : EventLoop) (l : LoopLabel) : Prop :=
  ∀ fd, l.removes = some fd → ∀ c, s.copies.Pending c → c.1.fd ≠ fd

/-- The list represents a map, and all copies are of events still registered. -/
structure InOrder (s : EventLoop) : Prop where
  represents : ∃ m, s.heap.Represents m
  registered : ∀ c, s.copies.Pending c → s.Registered c

variable {s s' : EventLoop} {l : LoopLabel} {ls : List LoopLabel} {c : Dispatch × ℕ}

/-- Nothing is registered and nothing waits in the beginning. -/
theorem start_inOrder : start.InOrder where
  represents := ⟨∅, SelectHeap.start_represents⟩
  registered _ hc := absurd hc (Snapshot.State.not_pending_of_done rfl)

/-! ### The copies of a pass -/

/-- A pass copies registered events. -/
theorem copied_of_registry {reg reg' : Registry} {a : SelectAnswer} {pending : List Dispatch}
    (h : psHandleSelect reg a = some (reg', pending)) {d : Dispatch} (hd : d ∈ pending) :
    ∃ ev, reg'.lookup d.fd = some ev ∧ ev.obj = d.obj ∧
      (d.callback = ev.func ∨ d.callback = ev.errfunc) := by
  have hcopy : ∀ (test : ℤ → PSSelectEvent → Bool) (callback : PSSelectEvent → PSSelectCallback),
      (∀ ev, callback ev = ev.func ∨ callback ev = ev.errfunc) → d ∈ reg'.copies test callback →
      ∃ ev, reg'.lookup d.fd = some ev ∧ ev.obj = d.obj ∧
        (d.callback = ev.func ∨ d.callback = ev.errfunc) := by
    intro test callback hcallback hmem
    rw [copies_eq] at hmem
    obtain ⟨⟨fd, ev⟩, he, rfl⟩ := List.mem_map.1 hmem
    have hentry := (List.mem_filter.1 (List.mem_reverse.1 he)).1
    exact ⟨ev, AList.mem_lookup_iff.2 hentry, rfl, hcallback ev⟩
  obtain ⟨hne, rfl⟩ := psHandleSelect_eq_some h
  unfold psHandleSelect at h
  rw [if_neg hne] at h
  dsimp only at h
  cases hreply : a.reply with
  | ready rdfs wrfs erfs =>
      rw [hreply] at h
      cases h
      exact hcopy _ _ (fun _ => .inl rfl) hd
  | timedOut =>
      rw [hreply] at h
      cases h
      exact hcopy _ _ (fun _ => .inl rfl) hd
  | failed =>
      rw [hreply] at h
      cases h
      exact hcopy _ _ (fun _ => .inr rfl) hd

/-- A registration is there after a step that keeps the entry of its descriptor, but for
the timeout. -/
theorem Registered.of_lookup (h : s.Registered c) {m m' : Registry} {heap : SelectHeap}
    {copies : Snapshot.State ℤ Dispatch} (hm : s.heap.Represents m) (hm' : heap.Represents m')
    (hcopies : copies.changes c.1.fd = s.copies.changes c.1.fd) (duration : Option Timespec)
    (hlook : m'.lookup c.1.fd = (m.lookup c.1.fd).map fun ev =>
      duration.elim ev ev.elapse) : Registered ⟨heap, copies⟩ c where
  current := h.current.trans hcopies.symm
  event := by
    obtain ⟨ev, hhas, hobj, hcallback⟩ := h.event
    rw [hm.has_iff.1 hhas, Option.map_some] at hlook
    refine ⟨_, hm'.has_iff.2 hlook, ?_⟩
    cases duration <;> exact ⟨hobj, hcallback⟩

/-! ### Steps -/

/-- What a removal does to the copies. -/
theorem removes_copies {fd : ℤ} (hfd : l.removes = some fd) (hs : Step s l s') :
    s'.copies = s.copies.touch fd := by
  cases hs with
  | @call c =>
      have hremoves : c.removes = some fd := hfd
      rw [hremoves]
      rfl
  | _ => cases hfd

/-- **A step that finds what it removes at the head and keeps the pending copies keeps
their registrations.** -/
theorem inOrder_step (h : s.InOrder) (hg : s.KeepsPending l) (hhd : s.HitsHead l)
    (hs : Step s l s') : s'.InOrder := by
  obtain ⟨⟨m, hm⟩, hreg⟩ := h
  cases hs with
  | @call c heap hans fuel hex =>
      have hm' := SelectCall.represents_of_exec hm hans hhd hex
      refine ⟨⟨_, hm'⟩, fun x hx => ?_⟩
      have hne : c.removes ≠ some x.1.fd := by
        intro hfd
        rw [hfd] at hx
        exact hg _ hfd x hx rfl
      have hsame : (touched s.copies c.removes).changes x.1.fd = s.copies.changes x.1.fd := by
        cases hremoves : c.removes with
        | none => rfl
        | some fd => exact Snapshot.State.touch_changes_ne fun he => hne (he ▸ hremoves)
      have hpending : s.copies.Pending x := by
        cases hremoves : c.removes with
        | none => rwa [hremoves] at hx
        | some fd => rwa [hremoves] at hx
      refine (hreg x hpending).of_lookup hm hm' hsame none ?_
      rw [SelectCall.lookup_onMap hne]
      exact Option.map_id'.symm
  | idle => exact ⟨⟨m, hm⟩, hreg⟩
  | @pass a heap pending fuel hpass =>
      obtain ⟨m', hm', hmap⟩ := hm.of_pass hpass
      refine ⟨⟨m', hm'⟩, fun x hx => ?_⟩
      rcases Snapshot.State.pending_take.1 hx with ⟨d, hd, rfl⟩ | hx
      · obtain ⟨ev, hlook, hev⟩ := copied_of_registry hmap hd
        exact ⟨rfl, ev, hm'.has_iff.2 hlook, hev⟩
      · obtain ⟨-, rfl⟩ := psHandleSelect_eq_some hmap
        exact (hreg x hx).of_lookup hm hm' rfl (some _) (Registry.lookup_updateTimeouts ..)
  | dispatch hnext =>
      refine ⟨⟨m, hm⟩, fun x hx => ?_⟩
      obtain ⟨hchanges, hpending⟩ := Snapshot.State.next_spec (c := x) hnext
      have hx' := hreg x (hpending.2 (.inr hx))
      exact ⟨hx'.current.trans (congrFun hchanges.symm _), hx'.event⟩
  | passed hfinish =>
      refine ⟨⟨m, hm⟩, fun x hx => ?_⟩
      obtain ⟨hchanges, hpending⟩ := Snapshot.State.finish_spec (c := x) hfinish
      have hx' := hreg x (hpending.2 hx)
      exact ⟨hx'.current.trans (congrFun hchanges.symm _), hx'.event⟩

/-- **A stale copy stays, while only registered events are called.** -/
theorem stale_step (hc : s.copies.Pending c) (hstale : s.copies.Stale Dispatch.fd c)
    (hcalls : CallsRegistered s l s') (hs : Step s l s') :
    s'.copies.Pending c ∧ s'.copies.Stale Dispatch.fd c := by
  cases hs with
  | @call x heap hans fuel hex =>
      cases hremoves : x.removes with
      | none => exact ⟨hc, hstale⟩
      | some fd => exact ⟨hc, hstale.touch fd⟩
  | idle => exact ⟨hc, hstale⟩
  | pass => exact ⟨Snapshot.State.pending_take.2 (.inr hc), hstale⟩
  | @dispatch x copies hnext =>
      obtain ⟨hchanges, hpending⟩ := Snapshot.State.next_spec (c := c) hnext
      have hstale' : copies.Stale Dispatch.fd c := by
        unfold Snapshot.State.Stale
        rw [hchanges]
        exact hstale
      rcases hpending.1 hc with rfl | hc'
      · exact absurd (hcalls rfl c copies hnext).current
          (Snapshot.State.not_current_of_stale hstale)
      · exact ⟨hc', hstale'⟩
  | passed hfinish =>
      obtain ⟨hchanges, hpending⟩ := Snapshot.State.finish_spec (c := c) hfinish
      refine ⟨hpending.1 hc, ?_⟩
      unfold Snapshot.State.Stale
      rw [hchanges]
      exact hstale

/-! ### Runs -/

/-- Where only registered events are called to the end of all passes, no pending copy is
stale. -/
theorem not_stale_of_run (hrun : Run (Obeying CallsRegistered HeadStep) s ls s')
    (hdone : s'.copies.batches = []) (hc : s.copies.Pending c) :
    ¬s.copies.Stale Dispatch.fd c := by
  intro hstale
  have hend := hrun.invariant
    (P := fun s => s.copies.Pending c ∧ s.copies.Stale Dispatch.fd c)
    (fun s l s' h hst => stale_step h.1 h.2 hst.2 hst.1.2) ⟨hc, hstale⟩
  exact Snapshot.State.not_pending_of_done hdone hend.1

/-- A run to the end of all passes that calls only registered events removes none that is
waiting. -/
theorem guarded_of_obeying (hrun : Run (Obeying CallsRegistered HeadStep) s ls s')
    (hdone : s'.copies.batches = []) (h : s.InOrder) :
    Run (Guarded KeepsPending HeadStep) s ls s' := by
  induction hrun with
  | nil => exact .nil _
  | @cons s t s' l ls hst hrest ih =>
      have hg : s.KeepsPending l := by
        rintro fd hfd c hc rfl
        -- the copy would be stale behind the step, and no copy is
        have hcopies := removes_copies hfd hst.1.2
        have hpending : t.copies.Pending c := by rwa [hcopies]
        refine not_stale_of_run hrest hdone hpending ?_
        rw [hcopies]
        exact Snapshot.State.stale_touch (h.registered c hc).current
      exact .cons ⟨hg, hst.1⟩ (ih hdone (inOrder_step h hg hst.1.1 hst.1.2))

/-- **Only registered events are called**, in every run in which every removal finds its
descriptor at the head of the list or nowhere and no registration is removed or replaced
while a copy of it is waiting (`ps_HandleSelect`, lines 252-317 of
`js/src/ext/psselect.c`); and among the runs with such removals to the end of all passes
these are the only ones. -/
theorem calls_registered (ls : List LoopLabel) (s : EventLoop) :
    (Run (Guarded KeepsPending HeadStep) start ls s → Run (Obeying CallsRegistered Step) start ls s) ∧
    (s.copies.batches = [] →
      (Run (Guarded KeepsPending HeadStep) start ls s ↔
        Run (Obeying CallsRegistered HeadStep) start ls s)) := by
  have hforward : Run (Guarded KeepsPending HeadStep) start ls s →
      Run (Obeying CallsRegistered HeadStep) start ls s := by
    intro hrun
    refine hrun.obeying (I := InOrder) ?_ start_inOrder
    intro s l s' h hg hst
    refine ⟨fun _ c copies hnext => h.registered c ?_, inOrder_step h hg hst.1 hst.2⟩
    exact (Snapshot.State.next_spec hnext).2.2 (.inl rfl)
  refine ⟨fun hrun => (hforward hrun).mono fun _ _ _ hst => ⟨hst.1.2, hst.2⟩, fun hdone => ?_⟩
  exact ⟨hforward, fun hrun => guarded_of_obeying hrun hdone start_inOrder⟩

/-- A `UDPSocket` waits for data, with the event at the address. -/
def udpWaits (fd : ℤ) (obj : ObjId) (event : ℕ) : LoopLabel :=
  .call (.addSelect fd PSFDSET_READ obj .udpSocketSelectCallback .udpSocketSelectErrorCallback (-1)
    (some event))

/-- Two sockets wait for data, it comes for both, and the callback of the first is called. -/
def bothReady : List LoopLabel :=
  [udpWaits 3 0 0, udpWaits 4 1 1, .handleSelect ⟨.ready [3, 4] [] [], ⟨0, 0⟩, ⟨1, 0⟩⟩, .dispatch]

/-- The second socket is called as well, and closes itself. -/
theorem calls_registered_self_closed : ∃ s, Run (Obeying CallsRegistered Step) start
    (bothReady ++ [.dispatch, .call (.removeSelect 4), .passed]) s := by
  have hempty : ∀ (s : EventLoop) (l : LoopLabel), s.copies.batches.flatten = [] →
      s.KeepsPending l := by
    rintro s l hs fd - c ⟨b, hb, hc⟩
    rw [List.flatten_eq_nil_iff.1 hs b hb] at hc
    cases hc
  have hnone : ∀ (s : EventLoop) (l : LoopLabel), l.removes = none → s.KeepsPending l := by
    intro s l hl fd hfd
    rw [hl] at hfd
    cases hfd
  have hrun : ∃ s, Run (Guarded KeepsPending HeadStep) start
      (bothReady ++ [.dispatch, .call (.removeSelect 4), .passed]) s := by
    refine ⟨_, .cons ⟨hempty _ _ rfl, ?_, .call rfl 3 rfl⟩ <|
      .cons ⟨hempty _ _ rfl, ?_, .call rfl 3 rfl⟩ <|
      .cons ⟨hnone _ _ rfl, trivial, .pass 3 rfl⟩ <|
      .cons ⟨hnone _ _ rfl, trivial, .dispatch rfl⟩ <|
      .cons ⟨hnone _ _ rfl, trivial, .dispatch rfl⟩ <|
      .cons ⟨hempty _ _ rfl, ?_, .call trivial 3 rfl⟩ <|
      .cons ⟨hnone _ _ rfl, trivial, .passed rfl⟩ (.nil _)⟩
    · rintro a ⟨⟩
    · rintro a (_ | ⟨⟨⟩⟩) hfd
      exact absurd hfd (by decide)
    · rintro a (_ | _ | ⟨⟨⟩⟩) hfd
      · rfl
      · exact absurd hfd (by decide)
  obtain ⟨s, hrun⟩ := hrun
  exact ⟨s, (calls_registered _ s).1 hrun⟩

/-- **A closed socket is called**: the callback of the first closes the second. -/
theorem calls_removed : ¬∀ ls s l s', Run Step start ls s → Step s l s' →
    CallsRegistered s l s' := by
  intro hclaim
  have hrun : ∃ s s' c copies, Run Step start (bothReady ++ [.call (.removeSelect 4)]) s ∧
      Step s .dispatch s' ∧ s.copies.next = some (c, copies) ∧
      ¬s.copies.Current Dispatch.fd c := by
    refine ⟨_, _, _, _, .cons (.call rfl 3 rfl) <| .cons (.call rfl 3 rfl) <|
      .cons (.pass 3 rfl) <| .cons (.dispatch rfl) <| .cons (.call trivial 3 rfl) (.nil _),
      .dispatch rfl, rfl, ?_⟩
    -- the copy was made after one change of the registration of 4, and there are two
    exact (by decide : ¬(1 : ℕ) = 2)
  obtain ⟨s, s', c, copies, hrun, hs, hnext, hstale⟩ := hrun
  exact hstale (hclaim _ s _ s' hrun hs rfl c copies hnext).current

end EventLoop
end ProntoScript
