/-
# Events after the script

"Asynchronous events are handled only after the whole script has executed": while
the outermost `js_Execute` interprets its script, no select callback should be
called, unless the script itself calls JSUnit's `events()`.  But `System.include`
and `eval` are a `js_Execute` too, with the event loop at its end, so whatever the
script has registered until then is handled there.

A stack is `Premature` while the outermost script is being interpreted, outside
of `events()`.  If every nested execution finds `ps_Events` to be `NULL` when its
script is done (`ListWorld.EndsQuietly`), no callback is called from a premature stack
(`ListWorld.events_after_script`): everything on such a stack is a script being
interpreted, except for a loop on top of it that has nothing to do.  This is about the
list itself: an event that `ps_RemoveSelect` released and left linked is handled as
well, so it is not enough that every socket was closed.
-/

import ProntoScript.System.ListWorld

namespace ProntoScript

open Transition (Run Guarded)

/-- The outermost script is still being interpreted, and it is not in a call of
`events()`. -/
def Premature (stack : List Activation) : Prop :=
  stack.getLast? = some .interpreting ∧ .events ∉ stack

/-- All of the stack that is premature is scripts being interpreted. -/
def Orderly : List Activation → Prop
  | [] => True
  | a :: rest => (Premature (a :: rest) → a = .interpreting) ∧ Orderly rest

section

variable {a : Activation} {rest : List Activation}

/-- With nothing active nothing is premature. -/
theorem not_premature_nil : ¬ Premature [] := by
  rintro ⟨hlast, -⟩
  cases hlast

/-- What is below an activation, unless it is the last. -/
theorem premature_cons : Premature (a :: rest) ↔
    a ≠ .events ∧ (rest = [] ∧ a = .interpreting ∨ Premature rest) := by
  cases rest with
  | nil =>
      constructor
      · rintro ⟨hlast, hno⟩
        obtain rfl := Option.some.inj hlast
        exact ⟨by decide, Or.inl ⟨rfl, rfl⟩⟩
      · rintro ⟨hne, ⟨-, rfl⟩ | hrest⟩
        · exact ⟨rfl, by simp⟩
        · exact absurd hrest not_premature_nil
  | cons b rest =>
      unfold Premature
      rw [List.getLast?_cons_cons, List.mem_cons, not_or]
      constructor
      · rintro ⟨hlast, hne, hno⟩
        exact ⟨fun h => hne h.symm, Or.inr ⟨hlast, hno⟩⟩
      · rintro ⟨hne, ⟨h, -⟩ | ⟨hlast, hno⟩⟩
        · cases h
        · exact ⟨hlast, fun h => hne h.symm, hno⟩

/-- Whatever is not a script being interpreted makes no stack premature that was not. -/
theorem Premature.of_cons (h : Premature (a :: rest)) (ha : a ≠ .interpreting) :
    Premature rest := by
  rcases (premature_cons.1 h).2 with ⟨-, heq⟩ | hrest
  · exact absurd heq ha
  · exact hrest

/-- Activations are in order with one more, if nothing but a script is premature there. -/
theorem Orderly.cons (h : Orderly rest) (ha : Premature (a :: rest) → a = .interpreting) :
    Orderly (a :: rest) := ⟨ha, h⟩

end

namespace ListWorld

variable {s s' : ListWorld} {l : ListLabel} {w : World}

/-- A nested execution finds `ps_Events` to be `NULL` when its script is done, unless it
is part of a call of `events()`. -/
def EndsQuietly (s : ListWorld) (l : ListLabel) : Prop :=
  l.label = .interpreted true → ∀ rest, s.world.stack = .interpreting :: rest → Premature rest →
    s.heap.psEvents = none

/-- **The loops on a premature stack have nothing to do**: such a stack is scripts being
interpreted, but for a loop on top of it, and then no event is linked. -/
def Waits (stack : List Activation) (heap : SelectHeap) : Prop :=
  Orderly stack ∨ ∃ rest, stack = .draining :: rest ∧ Orderly rest ∧
    (Premature rest → heap.psEvents = none)

/-- A running script is on an orderly stack. -/
theorem Waits.orderly_of_head {a : Activation} {stack rest : List Activation} {heap : SelectHeap}
    (h : Waits stack heap) (hstack : stack = a :: rest) (ha : a ≠ .draining) :
    Orderly (a :: rest) := by
  rcases h with h | ⟨rest', hstack', -⟩
  · rwa [hstack] at h
  · rw [hstack] at hstack'
    exact absurd (List.cons.inj hstack').1 ha

/-- Where a script runs its activations are in order. -/
theorem Waits.orderly_of_runs {heap : SelectHeap} (h : Waits w.stack heap)
    (hruns : w.scriptRuns = true) : Orderly w.stack := by
  rcases h with h | ⟨rest, hstack, -⟩
  · exact h
  · rw [World.scriptRuns, hstack] at hruns
    cases hruns

/-- Below a loop that has something to do nothing is premature. -/
theorem Waits.orderly_of_loop {loop : Activation} {rest : List Activation} {heap : SelectHeap}
    (h : Waits (loop :: rest) heap) (hloop : loop.isLoop = true) (hne : heap.psEvents ≠ none) :
    Orderly (loop :: rest) := by
  rcases h with h | ⟨rest', hstack, hrest, hempty⟩
  · exact h
  · obtain ⟨rfl, rfl⟩ := List.cons.inj hstack
    exact hrest.cons fun hpre => absurd (hempty (hpre.of_cons (by rintro ⟨⟩))) hne

/-- A pass of a loop that has something to do. -/
theorem Waits.pass {loop : Activation} {rest : List Activation} {heap heap' : SelectHeap}
    {pending : List Dispatch} (h : Waits (loop :: rest) heap) (hloop : loop.isLoop = true)
    (hne : heap.psEvents ≠ none) : Waits (.pass pending :: loop :: rest) heap' := by
  have hno : loop ≠ .interpreting := by
    rintro rfl
    cases hloop
  have hbelow := h.orderly_of_loop hloop hne
  refine Or.inl (hbelow.cons fun hpre => ?_)
  exact absurd (hbelow.1 (hpre.of_cons (by rintro ⟨⟩))) hno

/-- The handler that a callback calls is below no premature loop. -/
theorem Waits.dispatch {d : Dispatch} {pending : List Dispatch} {rest : List Activation}
    {exit : CallbackExit} {heap heap' : SelectHeap}
    (h : Waits (.pass (d :: pending) :: rest) heap) :
    Waits (d.enter exit ++ .pass pending :: rest) heap' := by
  obtain ⟨hno, hrest⟩ := h.orderly_of_head rfl (by rintro ⟨⟩)
  have hnot : ¬ Premature rest := by
    intro hpre
    cases hno (premature_cons.2 ⟨(by rintro ⟨⟩), Or.inr hpre⟩)
  have hpass : Orderly (.pass pending :: rest) :=
    hrest.cons fun hpre => absurd (hpre.of_cons (by rintro ⟨⟩)) hnot
  refine Or.inl ?_
  cases exit with
  | invoke inv =>
      refine hpass.cons fun hpre => absurd (hpre.of_cons ?_) ?_
      · rintro ⟨⟩
      · exact fun hpre => hnot (hpre.of_cons (by rintro ⟨⟩))
  | silent => exact hpass
  | reported => exact hpass

/-- A step that calls neither of the select functions leaves the list. -/
theorem heap_of_quiet {heap : SelectHeap} {calls : List SelectCall}
    (hsame : w.proc.selects = s.world.proc.selects) (hmakes : s.world.proc.Makes w.proc calls)
    (hcalls : Run SelectCall.Does s.heap calls heap) : heap = s.heap := by
  obtain rfl := (makes_nil hsame).1 hmakes
  cases hcalls
  rfl

/-- **Every step that ends quietly keeps the loops waiting.** -/
theorem step_waits (h : Waits s.world.stack s.heap) (hg : EndsQuietly s l) (hs : Step s l s') :
    Waits s'.world.stack s'.heap := by
  cases hs with
  | @idle a loop rest hstack hloop fuel hpass =>
      rw [hstack] at h
      rcases h with h | ⟨rest', hstack', hrest, -⟩
      · exact Or.inl h.2
      · obtain rfl := (List.cons.inj hstack').2
        exact Or.inl hrest
  | pass hstack hloop fuel hpass =>
      exact (hstack ▸ h).pass hloop (SelectHeap.psHandleSelect_ne_none hpass)
  | @act l calls w heap hl hw hmakes hcalls =>
      cases l with
      | handleSelect a => exact absurd rfl (hl a)
      | execute =>
          obtain ⟨-, rfl⟩ := World.step_execute hw
          exact Or.inl ⟨fun _ => rfl, trivial⟩
      | nest =>
          obtain ⟨hruns, rfl⟩ := World.step_nest hw
          exact Or.inl ((h.orderly_of_runs hruns).cons fun _ => rfl)
      | interpreted ok =>
          obtain ⟨rest, hstack, rfl⟩ := World.step_interpreted hw
          have hrest := (h.orderly_of_head hstack (by decide)).2
          cases ok with
          | true =>
              rw [heap_of_quiet rfl hmakes hcalls]
              exact Or.inr ⟨rest, rfl, hrest, hg rfl rest hstack⟩
          | false => exact Or.inl hrest
      | events =>
          obtain ⟨hruns, rfl⟩ := World.step_callEvents hw
          refine Or.inl ((h.orderly_of_runs hruns).cons fun hpre => ?_)
          exact absurd rfl (premature_cons.1 hpre).1
      | dispatch r =>
          obtain ⟨d, pending, rest, p, exit, hstack, -, -, rfl⟩ := World.step_dispatch hw
          exact (hstack ▸ h).dispatch
      | passed =>
          obtain ⟨rest, hstack, rfl⟩ := World.step_passed hw
          exact Or.inl (h.orderly_of_head hstack (by rintro ⟨⟩)).2
      | returned =>
          obtain ⟨d, inv, rest, hstack, rfl⟩ := World.step_returned hw
          exact Or.inl (h.orderly_of_head hstack (by rintro ⟨⟩)).2
      | script c =>
          obtain ⟨hruns, q, -, rfl⟩ := World.step_script hw
          exact Or.inl (h.orderly_of_runs hruns)
      | finalise o =>
          obtain ⟨-, -, rfl⟩ := World.step_finalise hw
          rw [heap_of_quiet _ hmakes hcalls]
          · exact h
          · dsimp only
            split_ifs
            · exact tcpSocketDT_selects
            · exact udpSocketDT_selects

/-- **Events are handled after the script, where nested executions end quietly**
(`js_Execute`, lines 1430-1450 of `js/src/jsinterp.c`).  In a run all of whose nested
executions find `ps_Events` to be `NULL` when their script is done, no select callback is
called while the outermost script is being interpreted, outside of `events()`. -/
theorem events_after_script {ls : List ListLabel} {r : CallbackReplies} {calls : List SelectCall}
    (hrun : Run (Guarded EndsQuietly Step) start ls s) (hs : Step s ⟨.dispatch r, calls⟩ s') :
    ¬ Premature s.world.stack := by
  have hstart : Waits start.world.stack start.heap := Or.inl trivial
  have hwaits : Waits s.world.stack s.heap :=
    hrun.invariant (P := fun s => Waits s.world.stack s.heap)
      (fun _ _ _ h hs => step_waits h hs.1 hs.2) hstart
  cases hs with
  | act _ hw =>
      obtain ⟨d, pending, rest, p, exit, hstack, -⟩ := World.step_dispatch hw
      rw [hstack]
      intro hpre
      cases (hwaits.orderly_of_head hstack (by rintro ⟨⟩)).1 hpre

/-- A script connects a socket and then includes another one: the loop at the end of the
inner execution calls the callback of the socket. -/
theorem event_before_end : ¬ ∀ ls s r calls s', Run Step start ls s →
    Step s ⟨.dispatch r, calls⟩ s' → ¬ Premature s.world.stack := by
  intro hclaim
  have hrun : ∃ s s' : ListWorld, Run Step start
      [⟨.execute, []⟩, ⟨.script (.newTCPSocket 0 [] true), []⟩,
        ⟨.script (.connect 0 peerArgs (connectAnswers 3 .inProgress)), [watchesConnect]⟩,
        ⟨.nest, []⟩, ⟨.interpreted true, []⟩,
        ⟨.handleSelect ⟨.ready [] [3] [], ⟨0, 0⟩, ⟨0, 0⟩⟩, []⟩] s ∧
        Step s ⟨.dispatch ⟨⟨true, .ready, "", true, true⟩, []⟩, [watchesData]⟩ s' ∧
        ∃ pending, s.world.stack = [.pass pending, .draining, .interpreting] := by
    refine ⟨_, _, .cons (.quiet (by rintro _ ⟨⟩) rfl rfl) <|
      .cons (.quiet (by rintro _ ⟨⟩) rfl rfl) <|
      .cons (.single (by rintro _ ⟨⟩) rfl _ rfl rfl rfl 1 rfl) <|
      .cons (.quiet (by rintro _ ⟨⟩) rfl rfl) <| .cons (.quiet (by rintro _ ⟨⟩) rfl rfl) <|
      .cons (.pass rfl rfl 1 rfl) (.nil _),
      .single (by rintro _ ⟨⟩) rfl _ rfl rfl rfl 2 rfl, _, rfl⟩
  obtain ⟨s, s', hrun, hs, pending, hstack⟩ := hrun
  refine hclaim _ s _ _ s' hrun hs ?_
  rw [hstack]
  exact ⟨rfl, by simp⟩

/-- A script that includes another one first and connects a socket then. -/
theorem events_after_script_included : ∃ (s s' : ListWorld) (r : CallbackReplies),
    Step s ⟨.dispatch r, [watchesData]⟩ s' ∧ ¬ Premature s.world.stack := by
  have hloud : ∀ (s : ListWorld) (l : ListLabel), l.label ≠ .interpreted true → EndsQuietly s l :=
    fun s l hl he => absurd he hl
  have hrun : ∃ s s' : ListWorld, Run (Guarded EndsQuietly Step) start
      [⟨.execute, []⟩, ⟨.nest, []⟩, ⟨.interpreted true, []⟩,
        ⟨.handleSelect ⟨.timedOut, ⟨0, 0⟩, ⟨0, 0⟩⟩, []⟩, ⟨.script (.newTCPSocket 0 [] true), []⟩,
        ⟨.script (.connect 0 peerArgs (connectAnswers 3 .inProgress)), [watchesConnect]⟩,
        ⟨.interpreted true, []⟩, ⟨.handleSelect ⟨.ready [] [3] [], ⟨0, 0⟩, ⟨0, 0⟩⟩, []⟩] s ∧
        Step s ⟨.dispatch ⟨⟨true, .ready, "", true, true⟩, []⟩, [watchesData]⟩ s' := by
    refine ⟨_, _, .cons ⟨hloud _ _ (by decide), .quiet (by rintro _ ⟨⟩) rfl rfl⟩ <|
      .cons ⟨hloud _ _ (by decide), .quiet (by rintro _ ⟨⟩) rfl rfl⟩ <|
      .cons ⟨fun _ _ _ _ => rfl, .quiet (by rintro _ ⟨⟩) rfl rfl⟩ <|
      .cons ⟨hloud _ _ (by decide), .idle rfl rfl 0 rfl⟩ <|
      .cons ⟨hloud _ _ (by decide), .quiet (by rintro _ ⟨⟩) rfl rfl⟩ <|
      .cons ⟨hloud _ _ (by decide), .single (by rintro _ ⟨⟩) rfl _ rfl rfl rfl 1 rfl⟩ <|
      .cons ⟨?_, .quiet (by rintro _ ⟨⟩) rfl rfl⟩ <|
      .cons ⟨hloud _ _ (by decide), .pass rfl rfl 1 rfl⟩ (.nil _),
      .single (by rintro _ ⟨⟩) rfl _ rfl rfl rfl 2 rfl⟩
    intro _ rest hstack hpre
    obtain rfl := (List.cons.inj hstack).2
    exact absurd hpre not_premature_nil
  obtain ⟨s, s', hrun, hs⟩ := hrun
  exact ⟨s, s', _, hs, events_after_script hrun hs⟩

end ListWorld
end ProntoScript
