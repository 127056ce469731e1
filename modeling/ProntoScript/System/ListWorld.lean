/-
# The engine over the linked list

The world of `ProntoScript.System.World` keeps the registry as the map keyed by
descriptor.  Here the same engine runs on the list of `js/src/ext/psselect.c`: the
calls of `ps_AddSelect` and `ps_RemoveSelect` that a step makes are made in the memory
of cells, each with what `JS_malloc` answers to it, and a pass of `ps_HandleSelect`
walks from `ps_Events`.  The map of the world is carried along to compare the list
with; no step looks at it.

Whatever the list has become, a run is one of the native code of the sockets in some
order (`ListWorld.run_native`) and one of the event loop (`ListWorld.run_eventLoop`).
Where every removal finds its descriptor at the head of the list
(`ListWorld.HeadStep`), it is a run of the world, and the list represents the map
(`ListWorld.run_world`).
-/

import ProntoScript.Select.Nesting
import ProntoScript.System.Safety

namespace ProntoScript

open Transition (Run Guarded)

/-! ### The calls of a step on the list -/

/-- What the map is meant to be after a call. -/
def SelectUse.onMap (m : Registry) : SelectUse → Registry
  | add fd mask obj func errfunc timeout =>
      m.insert fd ⟨mask, obj, func, errfunc, addTimeout timeout⟩
  | remove fd => m.erase fd

/-- The call of a process that is made on the list; one whose `JS_malloc` fails leaves the
list and is not recorded. -/
def SelectCall.use? : SelectCall → Option SelectUse
  | addSelect fd mask obj func errfunc timeout (some _) =>
      some (.add fd mask obj func errfunc timeout)
  | addSelect _ _ _ _ _ _ none => none
  | removeSelect fd => some (.remove fd)

/-- A call on the list returns. -/
def SelectCall.Does (h : SelectHeap) (c : SelectCall) (h' : SelectHeap) : Prop :=
  c.Answered h ∧ ∃ fuel, c.exec fuel h = some h'

/-- The calls are those the process has made since, in order. -/
def Process.Makes (p p' : Process) (calls : List SelectCall) : Prop :=
  ∃ uses : List SelectUse, calls.map SelectCall.use? = uses.map some ∧
    p'.selects = uses.reverse ++ p.selects

/-- Each of the calls finds the descriptor it removes at the head of the list, or nowhere,
when its turn comes. -/
def AllFindHead : SelectHeap → List SelectCall → Prop
  | _, [] => True
  | h, c :: calls => c.FindsHead h ∧ ∀ h', c.Does h h' → AllFindHead h' calls

section

variable {A : ObjId} {p q : Process} {h h' : SelectHeap} {m : Registry} {calls : List SelectCall}

/-- The acts of a socket change the registry by its calls only. -/
theorem Acts.registry (hacts : Acts A p q) :
    ∃ uses : List SelectUse, q.selects = uses.reverse ++ p.selects ∧
      q.registry = uses.foldl SelectUse.onMap p.registry := by
  induction hacts with
  | refl => exact ⟨[], rfl, rfl⟩
  | tail _ hact ih =>
      obtain ⟨uses, hselects, hreg⟩ := ih
      cases hact with
      | @add _ fd mask func errfunc timeout _ hadd =>
          obtain rfl := Option.some.inj hadd
          refine ⟨uses ++ [.add fd mask A func errfunc timeout], ?_, ?_⟩
          · rw [List.reverse_append, hselects]
            rfl
          · rw [List.foldl_append, ← hreg]
            rfl
      | @remove fd _ =>
          refine ⟨uses ++ [.remove fd], ?_, ?_⟩
          · rw [List.reverse_append, Process.psRemoveSelect_selects, hselects]
            rfl
          · rw [List.foldl_append, ← hreg]
            rfl
      | _ => exact ⟨uses, hselects, hreg⟩

/-- Calls on the list that are those of the process do to a map what these do. -/
theorem foldl_onMap {uses : List SelectUse} (hcalls : calls.map SelectCall.use? = uses.map some) :
    calls.foldl SelectCall.onMap m = uses.foldl SelectUse.onMap m := by
  induction calls generalizing m uses with
  | nil =>
      obtain rfl := List.map_eq_nil_iff.1 hcalls.symm
      rfl
  | cons c calls ih =>
      cases uses with
      | nil => cases hcalls
      | cons u uses =>
          obtain ⟨hc, hrest⟩ := List.cons.inj hcalls
          rw [List.foldl_cons, List.foldl_cons, ih hrest]
          cases c with
          | removeSelect fd =>
              obtain rfl := Option.some.inj hc
              rfl
          | addSelect fd mask obj func errfunc timeout event =>
              cases event with
              | none => cases hc
              | some event =>
                  obtain rfl := Option.some.inj hc
                  rfl

/-- **The registry behind the acts of a socket is what its calls make of the map.** -/
theorem Acts.registry_of_makes (hacts : Acts A p q) (hmakes : p.Makes q calls) :
    q.registry = calls.foldl SelectCall.onMap p.registry := by
  obtain ⟨uses, hselects, hreg⟩ := hacts.registry
  obtain ⟨uses', hcalls, hselects'⟩ := hmakes
  have hsame : uses = uses' :=
    List.reverse_injective (List.append_cancel_right (hselects.symm.trans hselects'))
  rw [hreg, hsame, foldl_onMap hcalls]

/-- **Calls that find their descriptors at the head keep the list and the map together.** -/
theorem represents_of_calls (hrun : Run SelectCall.Does h calls h') (hm : h.Represents m)
    (hhd : AllFindHead h calls) : h'.Represents (calls.foldl SelectCall.onMap m) := by
  induction hrun generalizing m with
  | nil => exact hm
  | cons hdoes _ ih =>
      obtain ⟨hans, fuel, hex⟩ := hdoes
      exact ih (SelectCall.represents_of_exec hm hans hhd.1 hex) (hhd.2 _ ⟨hans, fuel, hex⟩)

/-- No calls, no change. -/
theorem makes_nil (hsame : q.selects = p.selects) : p.Makes q calls ↔ calls = [] := by
  constructor
  · rintro ⟨uses, hcalls, hselects⟩
    rw [hsame] at hselects
    have hnil : uses.reverse = [] :=
      List.append_cancel_right (hselects.symm.trans rfl : _ = [] ++ _)
    rw [List.reverse_eq_nil_iff.1 hnil] at hcalls
    exact List.map_eq_nil_iff.1 hcalls
  · rintro rfl
    exact ⟨[], rfl, hsame⟩

end

/-! ### The steps -/

/-- The world, with the list beside the map. -/
structure ListWorld where
  world : World
  heap : SelectHeap

/-- What can happen next, with the calls of the select functions in it. -/
structure ListLabel where
  label : Label
  calls : List SelectCall := []

namespace ListWorld

/-- Nothing has happened. -/
def start : ListWorld := ⟨.start, .start⟩

/-- The steps: one of the world whose calls are made on the list, the end of a loop that
finds no events linked, a pass over the linked events. -/
inductive Step : ListWorld → ListLabel → ListWorld → Prop
  | act {s : ListWorld} {l : Label} {calls : List SelectCall} {w : World} {heap : SelectHeap}
      (hl : ∀ a, l ≠ .handleSelect a) (hw : World.Step s.world l w)
      (hmakes : s.world.proc.Makes w.proc calls) (hcalls : Run SelectCall.Does s.heap calls heap) :
      Step s ⟨l, calls⟩ ⟨w, heap⟩
  | idle {s : ListWorld} {a : SelectAnswer} {loop : Activation} {rest : List Activation}
      (hstack : s.world.stack = loop :: rest) (hloop : loop.isLoop = true) (fuel : ℕ)
      (hpass : s.heap.psHandleSelect fuel a = some none) :
      Step s ⟨.handleSelect a, []⟩ ⟨{ s.world with stack := rest }, s.heap⟩
  | pass {s : ListWorld} {a : SelectAnswer} {loop : Activation} {rest : List Activation}
      {heap : SelectHeap} {pending : List Dispatch}
      (hstack : s.world.stack = loop :: rest) (hloop : loop.isLoop = true) (fuel : ℕ)
      (hpass : s.heap.psHandleSelect fuel a = some (some (heap, pending))) :
      Step s ⟨.handleSelect a, []⟩
        ⟨{ s.world with
          proc := s.world.proc.elapse (diffTimespec a.start a.stop)
          stack := .pass pending :: loop :: rest }, heap⟩

/-- A step that calls neither of the select functions. -/
theorem Step.quiet {s : ListWorld} {l : Label} {w : World} (hl : ∀ a, l ≠ .handleSelect a)
    (hw : World.Step s.world l w) (hsame : w.proc.selects = s.world.proc.selects) :
    Step s ⟨l, []⟩ ⟨w, s.heap⟩ :=
  .act hl hw ((makes_nil hsame).2 rfl) (.nil _)

/-- A step that calls one of them once. -/
theorem Step.single {s : ListWorld} {l : Label} {w : World} {c : SelectCall} {heap : SelectHeap}
    (hl : ∀ a, l ≠ .handleSelect a) (hw : World.Step s.world l w) (u : SelectUse)
    (hu : c.use? = some u) (hselects : w.proc.selects = u :: s.world.proc.selects)
    (hans : c.Answered s.heap) (fuel : ℕ) (hex : c.exec fuel s.heap = some heap) :
    Step s ⟨l, [c]⟩ ⟨w, heap⟩ :=
  .act hl hw ⟨[u], by rw [List.map_singleton, hu]; rfl, hselects⟩ (.single ⟨hans, fuel, hex⟩)

/-- Every removal in the step finds its descriptor at the head of the list, or nowhere. -/
def HitsHead (s : ListWorld) (l : ListLabel) : Prop := AllFindHead s.heap l.calls

/-- The steps all of whose removals do. -/
def HeadStep : ListWorld → ListLabel → ListWorld → Prop := Guarded HitsHead Step

variable {s s' : ListWorld} {l : ListLabel} {ls : List ListLabel}

/-- A step with one call hits the head where the call does. -/
theorem hitsHead_single {l : Label} {c : SelectCall} (hc : c.FindsHead s.heap) :
    s.HitsHead ⟨l, [c]⟩ := ⟨hc, fun _ _ => trivial⟩

/-! ### The world over the map -/

/-- The list is the map, and the process is owned. -/
structure Represents (s : ListWorld) : Prop where
  owned : Owned s.world.proc
  heap : s.heap.Represents s.world.proc.registry

/-- The empty list is the empty map. -/
theorem start_represents : start.Represents := ⟨Owned.start, SelectHeap.start_represents⟩

/-- A pass over the list is the pass over the map. -/
theorem pass_world {a : SelectAnswer} {loop : Activation} {rest : List Activation}
    {heap : SelectHeap} {pending : List Dispatch} {n : ℕ} (h : s.Represents)
    (hstack : s.world.stack = loop :: rest) (hloop : loop.isLoop = true)
    (hpass : s.heap.psHandleSelect n a = some (some (heap, pending))) :
    heap.Represents (s.world.proc.elapse (diffTimespec a.start a.stop)).registry ∧
      World.Step s.world (.handleSelect a)
        { s.world with
          proc := s.world.proc.elapse (diffTimespec a.start a.stop)
          stack := .pass pending :: loop :: rest } := by
  obtain ⟨m, hm, hmap⟩ := h.heap.of_pass hpass
  obtain ⟨-, rfl⟩ := psHandleSelect_eq_some hmap
  refine ⟨hm, ?_⟩
  dsimp only [World.Step, World.step]
  rw [hstack]
  dsimp only
  rw [if_pos hloop, hmap]
  rfl

/-- **A step that finds what it removes at the head is one of the world**, and the list
goes on representing the map. -/
theorem step_world (h : s.Represents) (hhd : s.HitsHead l) (hs : Step s l s') :
    s'.Represents ∧ World.Step s.world l.label s'.world := by
  cases hs with
  | @act l calls w heap hl hw hmakes hcalls =>
      refine ⟨⟨World.step_owned h.owned hw, ?_⟩, hw⟩
      have hheap := represents_of_calls hcalls h.heap hhd
      rcases World.step_acts h.owned hw with ⟨A, -, hacts⟩ | ⟨-, hsame | ⟨a, -, rfl, -⟩⟩
      · exact hacts.registry_of_makes hmakes ▸ hheap
      · obtain rfl := (makes_nil (congrArg Process.selects hsame)).1 hmakes
        rw [hsame]
        exact hheap
      · exact absurd rfl (hl a)
  | @idle a loop rest hstack hloop fuel hpass =>
      have hnone := SelectHeap.psHandleSelect_eq_none hpass
      refine ⟨⟨h.owned, h.heap⟩, ?_⟩
      dsimp only [World.Step, World.step]
      rw [hstack]
      dsimp only
      rw [if_pos hloop, psHandleSelect_eq_none.2 (h.heap.psEvents_eq_none.1 hnone)]
  | @pass a loop rest heap pending hstack hloop fuel hpass =>
      obtain ⟨hheap, hw⟩ := pass_world h hstack hloop hpass
      exact ⟨⟨World.step_owned h.owned hw, hheap⟩, hw⟩

/-- **A run all of whose removals find their descriptors at the head is a run of the world
over the map, and its list represents the map.** -/
theorem run_world (hrun : Run HeadStep start ls s) :
    s.Represents ∧ Run World.Step .start (ls.map ListLabel.label) s.world :=
  hrun.map (f := world) (fun _ _ _ h hs => step_world h hs.1 hs.2) start_represents

/-! ### Whatever the list has become -/

/-- **Every run is one of the native code of the sockets in some order.** -/
theorem run_native (hrun : Run Step start ls s) :
    ∃ nls, Run Process.Native .start nls s.world.proc := by
  refine hrun.simulates (f := fun s => s.world.proc) (J := fun _ => True) ?_ trivial
  intro s l s' _ hs
  refine ⟨trivial, ?_⟩
  cases hs with
  | act hl hw =>
      obtain heq | ⟨nl, hnl⟩ := World.step_native hw
      · exact ⟨[], heq ▸ .nil _⟩
      · exact ⟨[nl], .single hnl⟩
  | idle => exact ⟨[], .nil _⟩
  | @pass a => exact ⟨[.elapse (diffTimespec a.start a.stop)], .single rfl⟩

end ListWorld

/-- The copies a pass has still to call. -/
def Activation.pending? : Activation → Option (List Dispatch)
  | .pass pending => some pending
  | _ => none

/-- The copies of the passes on a stack. -/
def pendingCopies (stack : List Activation) : List (List Dispatch) :=
  stack.filterMap Activation.pending?

namespace ListWorld

/-- The event loop as the engine has it. -/
structure HasLoop (s : ListWorld) (e : EventLoop) : Prop where
  heap : e.heap = s.heap
  batches : e.copies.batches.map (List.map Prod.fst) = pendingCopies s.world.stack

variable {s s' : ListWorld} {l : ListLabel} {ls : List ListLabel} {e : EventLoop} {w : World}
  {h h' : SelectHeap} {calls : List SelectCall}

/-- Calls on the list are calls in the loop. -/
theorem calls_eventLoop (hcalls : Run SelectCall.Does h calls h') (hheap : e.heap = h) :
    ∃ e', Run EventLoop.Step e (calls.map .call) e' ∧ e'.heap = h' ∧
      e'.copies.batches = e.copies.batches := by
  induction hcalls generalizing e with
  | nil => exact ⟨e, .nil _, hheap, rfl⟩
  | @cons h₁ h₂ h₃ c calls hdoes _ ih =>
      obtain ⟨hans, fuel, hex⟩ := hdoes
      subst hheap
      obtain ⟨e', hrun, hheap', hbatches⟩ :=
        ih (e := ⟨h₂, EventLoop.touched e.copies c.removes⟩) rfl
      refine ⟨e', .cons (.call hans fuel hex) hrun, hheap', hbatches.trans ?_⟩
      cases c.removes <;> rfl

/-- The loop behind the calls of a step, on the stack the step leaves. -/
theorem HasLoop.of_calls (hcalls : Run SelectCall.Does h calls h') (hheap : e.heap = h)
    (hbatches : e.copies.batches.map (List.map Prod.fst) = pendingCopies w.stack) :
    ∃ ls e', Run EventLoop.Step e ls e' ∧ HasLoop ⟨w, h'⟩ e' := by
  obtain ⟨e', hrun, hheap', hsame⟩ := calls_eventLoop hcalls hheap
  exact ⟨_, e', hrun, hheap', by rw [hsame]; exact hbatches⟩

/-- A loop that ends has no copies. -/
theorem pendingCopies_loop {loop : Activation} {rest : List Activation}
    (hloop : loop.isLoop = true) : pendingCopies (loop :: rest) = pendingCopies rest := by
  cases loop with
  | draining => rfl
  | events => rfl
  | _ => cases hloop

/-- The next copy is taken off, and its callback makes its calls. -/
theorem HasLoop.dispatch {r : CallbackReplies} (hs : HasLoop s e)
    (hw : World.Step s.world (.dispatch r) w) (hcalls : Run SelectCall.Does s.heap calls h') :
    ∃ ls e', Run EventLoop.Step e ls e' ∧ HasLoop ⟨w, h'⟩ e' := by
  obtain ⟨d, pending, rest, p, exit, hstack, -, -, rfl⟩ := World.step_dispatch hw
  have hbatches := hs.batches
  rw [hstack] at hbatches
  obtain ⟨b, bs, hcopies, hb, hbs⟩ := List.map_eq_cons_iff.1 hbatches
  obtain ⟨c, cs, rfl, -, hcs⟩ := List.map_eq_cons_iff.1 hb
  have hnext : e.copies.next = some (c, { e.copies with batches := cs :: bs }) := by
    rw [Snapshot.State.next, hcopies]
  have hpending : pendingCopies (d.enter exit ++ .pass pending :: rest) =
      pending :: pendingCopies rest := by cases exit <;> rfl
  obtain ⟨ls, e', hrun, hloop⟩ := HasLoop.of_calls
    (e := ⟨e.heap, { e.copies with batches := cs :: bs }⟩)
    (w := ⟨p, d.enter exit ++ .pass pending :: rest, d.event exit ++ s.world.events⟩) hcalls
    hs.heap (by
      rw [hpending, List.map_cons, hcs, hbs]
      rfl)
  exact ⟨_, e', .cons (.dispatch hnext) hrun, hloop⟩

/-- A pass is over. -/
theorem HasLoop.passed (hs : HasLoop s e) (hw : World.Step s.world .passed w)
    (hcalls : Run SelectCall.Does s.heap calls h') :
    ∃ ls e', Run EventLoop.Step e ls e' ∧ HasLoop ⟨w, h'⟩ e' := by
  obtain ⟨rest, hstack, rfl⟩ := World.step_passed hw
  have hbatches := hs.batches
  rw [hstack] at hbatches
  obtain ⟨b, bs, hcopies, hb, hbs⟩ := List.map_eq_cons_iff.1 hbatches
  obtain rfl := List.map_eq_nil_iff.1 hb
  have hfinish : e.copies.finish = some { e.copies with batches := bs } := by
    rw [Snapshot.State.finish, hcopies]
  obtain ⟨ls, e', hrun, hloop⟩ := HasLoop.of_calls (w := { s.world with stack := rest })
    (e := ⟨e.heap, { e.copies with batches := bs }⟩) hcalls hs.heap hbs
  exact ⟨_, e', .cons (.passed hfinish) hrun, hloop⟩

/-- **A step of the engine is a run of the loop.** -/
theorem HasLoop.step (hs : HasLoop s e) (hst : Step s l s') :
    ∃ ls e', Run EventLoop.Step e ls e' ∧ HasLoop s' e' := by
  cases hst with
  | @act l calls w heap hl hw hmakes hcalls =>
      have hsame : pendingCopies w.stack = pendingCopies s.world.stack →
          ∃ ls e', Run EventLoop.Step e ls e' ∧ HasLoop ⟨w, heap⟩ e' := fun hstack =>
        HasLoop.of_calls hcalls hs.heap (by rw [hstack]; exact hs.batches)
      cases l with
      | execute =>
          obtain ⟨hstack, rfl⟩ := World.step_execute hw
          exact hsame (by rw [hstack]; rfl)
      | nest =>
          obtain ⟨-, rfl⟩ := World.step_nest hw
          exact hsame rfl
      | interpreted ok =>
          obtain ⟨rest, hstack, rfl⟩ := World.step_interpreted hw
          refine hsame ?_
          rw [hstack]
          cases ok <;> rfl
      | events =>
          obtain ⟨-, rfl⟩ := World.step_callEvents hw
          exact hsame rfl
      | script c =>
          obtain ⟨-, q, -, rfl⟩ := World.step_script hw
          exact hsame rfl
      | finalise o =>
          obtain ⟨-, -, rfl⟩ := World.step_finalise hw
          exact hsame rfl
      | returned =>
          obtain ⟨d, inv, rest, hstack, rfl⟩ := World.step_returned hw
          exact hsame (by rw [hstack]; rfl)
      | passed => exact hs.passed hw hcalls
      | dispatch r => exact hs.dispatch hw hcalls
      | handleSelect a => exact absurd rfl (hl a)
  | @idle a loop rest hstack hloop fuel hpass =>
      refine ⟨[.handleSelect a], e, .single (.idle fuel (hs.heap ▸ hpass)), hs.heap, ?_⟩
      rw [hs.batches, hstack]
      exact pendingCopies_loop hloop
  | @pass a loop rest heap pending hstack hloop fuel hpass =>
      refine ⟨[.handleSelect a], ⟨heap, e.copies.take Dispatch.fd pending⟩,
        .single (.pass fuel (hs.heap ▸ hpass)), rfl, ?_⟩
      have hbatches := hs.batches
      rw [hstack] at hbatches
      have htake : (pending.map fun d => (d, e.copies.changes d.fd)).map Prod.fst = pending := by
        rw [List.map_map]
        exact List.map_id _
      show (_ :: e.copies.batches).map _ = pending :: pendingCopies (loop :: rest)
      rw [List.map_cons, htake, hbatches]

/-- **The engine runs the event loop**: the list and the copies still to call are those of a
run of the loop. -/
theorem run_eventLoop (hrun : Run Step start ls s) :
    ∃ ls' e, Run EventLoop.Step .start ls' e ∧ HasLoop s e :=
  hrun.follows (R := HasLoop) (fun _ _ _ _ h hs => h.step hs) (t := .start) ⟨rfl, rfl⟩

/-- The call that registers a new connection of object 0 on descriptor 3, at address 0. -/
def watchesConnect : SelectCall :=
  .addSelect 3 PSFDSET_WRITE 0 .tcpSocketSelectCallback .tcpSocketSelectErrorCallback 5000 (some 0)

/-- The one that registers it for data then, at address 1. -/
def watchesData : SelectCall :=
  .addSelect 3 PSFDSET_READ 0 .tcpSocketSelectCallback .tcpSocketSelectErrorCallback (-1) (some 1)

end ListWorld
end ProntoScript
