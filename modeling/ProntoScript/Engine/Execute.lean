/-
# The execution of a script

`js_Execute` (`js/src/jsinterp.c`, lines 1347-1468) takes stack for the global variables of
the script, parks the current chain of frames among the dormant ones, pushes a frame,
initialises the select mechanism, interprets the script, handles the events, and undoes
the first three.  Scripts, functions and handlers run further code in between, to any
depth (`Code`), and native functions among it call `js_Execute` in turn: `System.include`,
`eval`, `script.exec`.

Where `ps_InitSelect` fails, `js_Execute` returns at once.  Only a build with
`JS_THREADSAFE` has a lock to make there.  The hook for executions is `NULL`: nothing sets
one.  Frames have addresses, and a new one is not where another still is; the frame of a
function that has returned may be.
-/

import Mathlib.Data.List.Nodup
import Mathlib.Logic.Function.Basic
import ProntoScript.Engine.Stack

namespace ProntoScript

/-- The links of a `JSStackFrame`. Source: lines 53-76 of `js/src/jsinterp.h`. -/
structure ExecFrame where
  down : Option FrameId
  dormantNext : Option FrameId
deriving DecidableEq, Repr

/-- The part of `JSContext` that `js_Execute` uses, with the frames in memory and the lock
of the select events, which only a build with `JS_THREADSAFE` has. Source: lines 471-596
of `js/src/jscntxt.h`. -/
structure ExecContext where
  threadsafe : Bool
  psEventsLock : Bool
  stackPool : ArenaPool
  fp : Option FrameId
  dormantFrameChain : Option FrameId
  frames : FrameId → ExecFrame

/-- What a call of `js_Execute` is about: which of the active frames it runs the script for,
counted from the current one, if for any; the global variables of the script; where its own
frame is; whether the script is interpreted without a failure; and what it is answered when
it asks for stack and for a lock. -/
structure ExecuteArgs where
  caller : Option ℕ
  numGlobalVars : ℕ
  frame : FrameId
  ok : Bool
  answer : Option ℕ
  newLock : Bool
deriving DecidableEq, Repr

/-- The frame a number of links below. -/
def frameBelow (frames : FrameId → ExecFrame) : ℕ → Option FrameId → Option FrameId
  | 0, fp => fp
  | k + 1, fp => frameBelow frames k (fp.bind fun f => (frames f).down)

/-- The address of a new frame: anywhere but where a frame is. -/
def newFrame (live : List FrameId) (answer : FrameId) : FrameId :=
  if answer ∈ live then live.foldr max 0 + 1 else answer

namespace ExecContext

/-- Store to `dormantNext`. -/
def setDormantNext (cx : ExecContext) (f : FrameId) (next : Option FrameId) : ExecContext :=
  { cx with frames := Function.update cx.frames f { cx.frames f with dormantNext := next } }

/-- Put a frame first in the chain of dormant frames. -/
def park (cx : ExecContext) (f : FrameId) : ExecContext :=
  { cx.setDormantNext f cx.dormantFrameChain with dormantFrameChain := some f }

/-- Take it out again. -/
def unpark (cx : ExecContext) (f : FrameId) : ExecContext :=
  { cx.setDormantNext f none with dormantFrameChain := (cx.frames f).dormantNext }

/-- Initialise a frame. -/
def initFrame (cx : ExecContext) (frame : FrameId) (down : Option FrameId) : ExecContext :=
  { cx with frames := Function.update cx.frames frame ⟨down, none⟩ }

/-- `js_FreeRawStack`. Source: lines 344-348 of `js/src/jsinterp.c`. -/
def freeRawStack (cx : ExecContext) (mark : ℕ) : ExecContext :=
  { cx with stackPool := cx.stackPool.release mark }

/-- `ps_InitSelect`, given whether `JS_NEW_LOCK` has a lock. Source: lines 163-175 of
`js/src/ext/psselect.c`. -/
def psInitSelect (cx : ExecContext) (newLock : Bool) : ExecContext × Bool :=
  if cx.threadsafe && !cx.psEventsLock then ({ cx with psEventsLock := newLock }, newLock)
  else (cx, true)

/-- `ps_DestroySelect`. Source: lines 180-189 of `js/src/ext/psselect.c`. -/
def psDestroySelect (cx : ExecContext) : ExecContext :=
  if cx.threadsafe then { cx with psEventsLock := false } else cx

/-- What `js_GC` does to the links of a context: the current frame is temporarily tacked
onto the head of the dormant list. Source: lines 1530-1989 of `js/src/jsgc.c`. -/
def jsGC (cx : ExecContext) : ExecContext :=
  match cx.fp with
  | none => cx
  | some fp => (cx.setDormantNext fp cx.dormantFrameChain).setDormantNext fp none

end ExecContext

/-- A call of `js_Execute` that has returned: the context at entry and at exit. -/
structure Execution where
  args : ExecuteArgs
  entry : ExecContext
  exit : ExecContext

namespace ExecuteArgs

/-- The argument `down`. -/
def down (x : ExecuteArgs) (cx : ExecContext) : Option FrameId :=
  x.caller.bind fun k => frameBelow cx.frames k cx.fp

/-- The current frame, if `js_Execute` parks it. -/
def oldfp (x : ExecuteArgs) (cx : ExecContext) : Option FrameId :=
  cx.fp.filter fun fp => decide (some fp ≠ x.down cx)

/-- Allocate the global variables: the pool, the mark, if any, and whether there is stack. -/
def allocVars (x : ExecuteArgs) (cx : ExecContext) : ArenaPool × Option ℕ × Bool :=
  if (x.down cx).isSome || x.numGlobalVars == 0 then (cx.stackPool, none, true)
  else
    let q := cx.stackPool.allocate (x.numGlobalVars * 8) x.answer
    (q.1, some cx.stackPool.mark, q.2.isSome)

/-- `ps_InitSelect` is asked for a lock and does not get one. -/
def InitFails (x : ExecuteArgs) (cx : ExecContext) : Prop :=
  (x.allocVars cx).2.2 = true ∧ cx.threadsafe = true ∧ cx.psEventsLock = false ∧ x.newLock = false

instance (x : ExecuteArgs) (cx : ExecContext) : Decidable (x.InitFails cx) :=
  inferInstanceAs (Decidable (_ ∧ _))

/-- Initialise the frame, park the current one, and make the frame the current one. -/
def enter (x : ExecuteArgs) (frame : FrameId) (cx : ExecContext) : ExecContext :=
  let cx' := cx.initFrame frame (x.down cx)
  { (x.oldfp cx).elim cx' cx'.park with fp := some frame }

/-- Make the frame of the entry the current one again, and take it out of the dormant ones. -/
def leave (x : ExecuteArgs) (entry cx : ExecContext) : ExecContext :=
  let cx := { cx with fp := entry.fp }
  (x.oldfp entry).elim cx cx.unpark

end ExecuteArgs

/-- `js_Execute`, with its frame at a given address, given what interpreting the script
and handling the events do.  With the context come the executions that have returned.
Source: lines 1347-1468 of `js/src/jsinterp.c`. -/
def jsExecute (x : ExecuteArgs) (frame : FrameId)
    (script events : ExecContext → ExecContext × List Execution) (entry : ExecContext) :
    ExecContext × List Execution :=
  match x.allocVars entry with
  | (pool, _, false) => ({ entry with stackPool := pool }, [])
  | (pool, mark, true) =>
      match (x.enter frame { entry with stackPool := pool }).psInitSelect x.newLock with
      | (cx, false) => (cx, [])
      | (cx, true) =>
          let r := script cx
          let s := if x.ok then
              let s := events r.1
              (s.1.psDestroySelect, r.2 ++ s.2)
            else r
          (x.leave entry (mark.elim s.1 s.1.freeRawStack), s.2)

/-- `ReportIsNotFunction`, given what the report does: it switches to the frame below. -/
def reportIsNotFunction (report : ExecContext → ExecContext × List Execution)
    (cx : ExecContext) : ExecContext × List Execution :=
  match cx.fp with
  | none => report cx
  | some fp =>
      match (cx.frames fp).down with
      | none => report cx
      | some down =>
          let r := report { cx.park fp with fp := some down }
          ({ r.1.unpark fp with fp := some fp }, r.2)

/-- What code does to a context, one thing after the other.  Only native code calls
`js_Execute`. -/
inductive Code : Bool → Type
  /-- It returns. -/
  | done {native : Bool} : Code native
  /-- A garbage collection. -/
  | gc {native : Bool} (rest : Code native) : Code native
  /-- Stack is allocated for what is done next, and then given back. -/
  | raw {native : Bool} (nslots : ℕ) (answer : Option ℕ) (body rest : Code native) : Code native
  /-- A function of the script or a native one is called, with a frame of its own. -/
  | call {native inner : Bool} (frame : FrameId) (callee : Code inner) (rest : Code native) :
      Code native
  /-- A call of something that is not a function is reported. -/
  | report {native : Bool} (body rest : Code native) : Code native
  /-- A script is executed. -/
  | execute (x : ExecuteArgs) (script : Code false) (events rest : Code true) : Code true

/-- The context it leaves and the executions that have returned, given where frames are. -/
def Code.exec : {native : Bool} → Code native → List FrameId → ExecContext →
    ExecContext × List Execution
  | _, done, _, cx => (cx, [])
  | _, gc rest, live, cx => rest.exec live cx.jsGC
  | _, raw nslots answer body rest, live, cx =>
      match cx.stackPool.allocate (nslots * 8) answer with
      | (pool, none) => rest.exec live { cx with stackPool := pool }
      | (pool, some _) =>
          let r := body.exec live { cx with stackPool := pool }
          let s := rest.exec live (r.1.freeRawStack cx.stackPool.mark)
          (s.1, r.2 ++ s.2)
  | _, call frame callee rest, live, cx =>
      let frame := newFrame live frame
      let r := callee.exec (frame :: live) { cx.initFrame frame cx.fp with fp := some frame }
      let s := rest.exec live { r.1.freeRawStack cx.stackPool.mark with fp := cx.fp }
      (s.1, r.2 ++ s.2)
  | _, report body rest, live, cx =>
      let r := reportIsNotFunction (body.exec live) cx
      let s := rest.exec live r.1
      (s.1, r.2 ++ s.2)
  | _, execute x script events rest, live, cx =>
      let frame := newFrame live x.frame
      let r := jsExecute x frame (script.exec (frame :: live)) (events.exec (frame :: live)) cx
      let s := rest.exec live r.1
      (s.1, r.2 ++ ⟨x, cx, r.1⟩ :: s.2)

/-! ### Contexts in order -/

/-- The frames from one on, down to the last. -/
def Linked (frames : FrameId → ExecFrame) : Option FrameId → List FrameId → Prop
  | fp, [] => fp = none
  | fp, f :: stack => fp = some f ∧ Linked frames (frames f).down stack

/-- The pool is in order, and the active frames are different ones, live, and not dormant. -/
structure ExecContext.Consistent (live : List FrameId) (cx : ExecContext) : Prop where
  pool : cx.stackPool.WF
  active : ∃ stack, Linked cx.frames cx.fp stack ∧ stack.Nodup ∧
    ∀ f ∈ stack, f ∈ live ∧ (cx.frames f).dormantNext = none

/-- Everything is as it was, as far as the frames are concerned that were live. -/
structure ExecContext.Kept (live : List FrameId) (cx cx' : ExecContext) : Prop where
  pool : cx'.stackPool = cx.stackPool
  fp : cx'.fp = cx.fp
  chain : cx'.dormantFrameChain = cx.dormantFrameChain
  frames : ∀ f ∈ live, cx'.frames f = cx.frames f

namespace Execution

/-- `js_Execute` has restored the context. -/
structure Restored (e : Execution) : Prop where
  fp : e.exit.fp = e.entry.fp
  chain : e.exit.dormantFrameChain = e.entry.dormantFrameChain
  dormantNext : ∀ oldfp, e.entry.fp = some oldfp →
    (e.exit.frames oldfp).dormantNext = (e.entry.frames oldfp).dormantNext
  pool : e.exit.stackPool = e.entry.stackPool

/-- `ps_InitSelect` failed. -/
def InitFails (e : Execution) : Prop := e.args.InitFails e.entry

instance (e : Execution) : Decidable e.InitFails := inferInstanceAs (Decidable (e.args.InitFails _))

end Execution

section

variable {frames frames' : FrameId → ExecFrame} {fp : Option FrameId} {stack : List FrameId}

/-- Frames with the same links are linked the same way. -/
theorem Linked.congr (h : Linked frames fp stack)
    (heq : ∀ f ∈ stack, (frames' f).down = (frames f).down) : Linked frames' fp stack := by
  induction stack generalizing fp with
  | nil => exact h
  | cons f stack ih =>
      obtain ⟨hfp, hdown⟩ := h
      refine ⟨hfp, ?_⟩
      rw [heq f (List.mem_cons_self ..)]
      exact ih hdown fun g hg => heq g (List.mem_cons_of_mem _ hg)

/-- The frames from a frame below on. -/
theorem Linked.below (h : Linked frames fp stack) (k : ℕ) :
    Linked frames (frameBelow frames k fp) (stack.drop k) := by
  induction k generalizing fp stack with
  | zero => exact h
  | succ k ih =>
      rcases stack with _ | ⟨f, stack⟩
      · obtain rfl : fp = none := h
        have hnil := ih (show Linked frames none [] from rfl)
        rw [List.drop_nil] at hnil ⊢
        exact hnil
      · obtain ⟨rfl, hdown⟩ := h
        exact ih hdown

/-- The current frame is the first of those that are linked. -/
theorem Linked.eq_cons {f : FrameId} (h : Linked frames (some f) stack) :
    ∃ below, stack = f :: below ∧ Linked frames (frames f).down below := by
  rcases stack with _ | ⟨g, below⟩
  · cases h
  · obtain ⟨hfp, hdown⟩ := h
    obtain rfl := Option.some.inj hfp
    exact ⟨below, rfl, hdown⟩

/-- A new frame is not where another is. -/
theorem newFrame_not_mem (live : List FrameId) (answer : FrameId) :
    newFrame live answer ∉ live := by
  have hle : ∀ f ∈ live, f ≤ live.foldr max 0 := by
    induction live with
    | nil => simp
    | cons g live ih =>
        intro f hf
        rw [List.foldr_cons]
        rcases List.mem_cons.1 hf with rfl | hf
        · exact Nat.le_max_left ..
        · exact Nat.le_trans (ih f hf) (Nat.le_max_right ..)
  unfold newFrame
  split_ifs with h
  · intro hmem
    exact Nat.not_succ_le_self _ (hle _ hmem)
  · exact h

end

namespace ExecContext

section

variable {live live' : List FrameId} {cx cx' cx'' : ExecContext} {frame f : FrameId}
  {down : Option FrameId} {below : List FrameId}

/-- Nothing is changed. -/
theorem Kept.refl (live : List FrameId) (cx : ExecContext) : cx.Kept live cx :=
  ⟨rfl, rfl, rfl, fun _ _ => rfl⟩

/-- What two steps keep is kept. -/
theorem Kept.trans (h₁ : cx.Kept live cx') (h₂ : cx'.Kept live cx'') : cx.Kept live cx'' :=
  ⟨h₂.pool.trans h₁.pool, h₂.fp.trans h₁.fp, h₂.chain.trans h₁.chain,
    fun f hf => (h₂.frames f hf).trans (h₁.frames f hf)⟩

/-- What is kept is in order. -/
theorem Consistent.kept (h : cx.Consistent live) (hkept : cx.Kept live cx') :
    cx'.Consistent live := by
  obtain ⟨hpool, stack, hlinked, hnodup, hstack⟩ := h
  refine ⟨hkept.pool ▸ hpool, stack, ?_, hnodup, fun f hf => ⟨(hstack f hf).1, ?_⟩⟩
  · rw [hkept.fp]
    exact hlinked.congr fun f hf => by rw [hkept.frames f (hstack f hf).1]
  · rw [hkept.frames f (hstack f hf).1]
    exact (hstack f hf).2

/-- The current frame is live, and not dormant. -/
theorem Consistent.current (h : cx.Consistent live) (hfp : cx.fp = some f) :
    f ∈ live ∧ (cx.frames f).dormantNext = none := by
  obtain ⟨-, stack, hlinked, -, hstack⟩ := h
  rw [hfp] at hlinked
  obtain ⟨below, rfl, -⟩ := hlinked.eq_cons
  exact hstack f (List.mem_cons_self ..)

/-- A new frame on top of others. -/
theorem consistent_push (hpool : cx.stackPool.WF) (hfp : cx.fp = some frame)
    (hframe : cx.frames frame = ⟨down, none⟩) (hnew : frame ∉ live)
    (hlinked : Linked cx.frames down below) (hnodup : below.Nodup)
    (hbelow : ∀ g ∈ below, g ∈ live ∧ (cx.frames g).dormantNext = none) :
    cx.Consistent (frame :: live) := by
  refine ⟨hpool, frame :: below, ⟨hfp, by rw [hframe]; exact hlinked⟩, ?_, ?_⟩
  · exact List.nodup_cons.2 ⟨fun hmem => hnew (hbelow frame hmem).1, hnodup⟩
  · intro g hg
    rcases List.mem_cons.1 hg with rfl | hg
    · exact ⟨List.mem_cons_self .., by rw [hframe]⟩
    · exact ⟨List.mem_cons_of_mem _ (hbelow g hg).1, (hbelow g hg).2⟩

/-- A new frame is none of those that are live. -/
theorem initFrame_frames (cx : ExecContext) (down : Option FrameId) (hnew : frame ∉ live)
    (hlive : f ∈ live) : (cx.initFrame frame down).frames f = cx.frames f := by
  have hne : f ≠ frame := fun heq => hnew (heq ▸ hlive)
  exact Function.update_of_ne hne ..

/-- A function is called. -/
theorem Consistent.call (h : cx.Consistent live) (hnew : frame ∉ live) :
    ExecContext.Consistent (frame :: live)
      { cx.initFrame frame cx.fp with fp := some frame } := by
  obtain ⟨hpool, stack, hlinked, hnodup, hstack⟩ := h
  have hold : ∀ g ∈ stack, (cx.initFrame frame cx.fp).frames g = cx.frames g :=
    fun g hg => initFrame_frames cx cx.fp hnew (hstack g hg).1
  refine consistent_push hpool rfl (Function.update_self ..) hnew ?_ hnodup fun g hg => ?_
  · exact hlinked.congr fun g hg => congrArg ExecFrame.down (hold g hg)
  · obtain ⟨hlive, hlink⟩ := hstack g hg
    exact ⟨hlive, (congrArg ExecFrame.dormantNext (hold g hg)).trans hlink⟩

/-- The current frame is parked, and the one below it is the current one instead. -/
theorem Consistent.lower {g : FrameId} (h : cx.Consistent live) (hfp : cx.fp = some f)
    (hdown : (cx.frames f).down = some g) :
    ExecContext.Consistent live { cx.park f with fp := some g } := by
  obtain ⟨hpool, stack, hlinked, hnodup, hstack⟩ := h
  rw [hfp] at hlinked
  obtain ⟨below, rfl, hbelow⟩ := hlinked.eq_cons
  obtain ⟨hout, hnodup⟩ := List.nodup_cons.1 hnodup
  rw [hdown] at hbelow
  have hsame : ∀ f' ∈ below, (cx.park f).frames f' = cx.frames f' := by
    intro f' hf'
    have hne : f' ≠ f := fun heq => hout (heq ▸ hf')
    exact Function.update_of_ne hne ..
  refine ⟨hpool, below, hbelow.congr fun f' hf' => by rw [hsame f' hf'], hnodup, fun f' hf' => ?_⟩
  obtain ⟨hlive, hlink⟩ := hstack f' (List.mem_cons_of_mem _ hf')
  exact ⟨hlive, (congrArg ExecFrame.dormantNext (hsame f' hf')).trans hlink⟩

/-- Only the lock is the select mechanism's. -/
theorem psInitSelect_eq (cx : ExecContext) (newLock : Bool) :
    cx.psInitSelect newLock =
      ({ cx with psEventsLock := (cx.psInitSelect newLock).1.psEventsLock },
        !(cx.threadsafe && !cx.psEventsLock && !newLock)) := by
  unfold psInitSelect
  split_ifs with h
  · rw [h, Bool.true_and, Bool.not_not]
  · rw [Bool.not_eq_true] at h
    rw [h]
    rfl

/-- Destroying the lock keeps the frames. -/
theorem kept_psDestroySelect (live : List FrameId) (cx : ExecContext) :
    cx.Kept live cx.psDestroySelect := by
  unfold psDestroySelect
  split_ifs
  · exact ⟨rfl, rfl, rfl, fun _ _ => rfl⟩
  · exact .refl live cx

/-- What was allocated is given back. -/
theorem Kept.freeRawStack {pool : ArenaPool} (h : cx.stackPool.WF) (hwf : pool.WF)
    (hext : cx.stackPool.Extends pool) (hkept : Kept live { cx with stackPool := pool } cx') :
    cx.Kept live (cx'.freeRawStack cx.stackPool.mark) := by
  refine ⟨?_, hkept.fp, hkept.chain, hkept.frames⟩
  show cx'.stackPool.release cx.stackPool.mark = cx.stackPool
  rw [hkept.pool]
  exact ArenaPool.release_of_extends h hwf hext

/-- A garbage collection leaves the links of a current frame that is not dormant. -/
theorem Consistent.kept_jsGC (h : cx.Consistent live) : cx.Kept live cx.jsGC := by
  unfold jsGC
  split
  · exact .refl live cx
  · rename_i fp hfp
    obtain ⟨-, hnone⟩ := h.current hfp
    refine ⟨rfl, rfl, rfl, fun g _ => ?_⟩
    unfold setDormantNext
    by_cases hg : g = fp
    · subst hg
      simp only [Function.update_self]
      rw [← hnone]
    · simp only [Function.update_of_ne hg]

/-- What is parked comes out of the dormant frames as it went in. -/
theorem unpark_of_park {cx₁ : ExecContext} (hnone : (cx.frames f).dormantNext = none)
    (hf : cx₁.frames f = { cx.frames f with dormantNext := cx.dormantFrameChain })
    (hframes : ∀ g ∈ live, g ≠ f → cx₁.frames g = cx.frames g) :
    (cx₁.unpark f).dormantFrameChain = cx.dormantFrameChain ∧
      ∀ g ∈ live, (cx₁.unpark f).frames g = cx.frames g := by
  refine ⟨congrArg ExecFrame.dormantNext hf, fun g hg => ?_⟩
  unfold unpark setDormantNext
  by_cases hgf : g = f
  · subst hgf
    simp only [Function.update_self]
    rw [hf, ← hnone]
  · simp only [Function.update_of_ne hgf]
    exact hframes g hg hgf

end
end ExecContext

/-- All executions have restored the context, and `ps_InitSelect` never failed. -/
def Sound (log : List Execution) : Prop := ∀ e ∈ log, e.Restored ∧ ¬ e.InitFails

/-- `ps_InitSelect` has failed, and an execution has not restored the context. -/
def Broken (log : List Execution) : Prop :=
  (∃ e ∈ log, e.InitFails) ∧ ∃ e ∈ log, ¬ e.Restored

/-- What code leaves. -/
def Leaves (live : List FrameId) (cx : ExecContext) (r : ExecContext × List Execution) : Prop :=
  Sound r.2 ∧ cx.Kept live r.1 ∨ Broken r.2

section

variable {live : List FrameId} {cx cx' : ExecContext} {frame : FrameId} {x : ExecuteArgs}
  {log log' : List Execution} {r : ExecContext × List Execution}
  {script events : ExecContext → ExecContext × List Execution}

/-- A log of one execution that has its lock and restores the context. -/
theorem sound_singleton {e : Execution} (h : e.Restored) (h' : ¬ e.InitFails) : Sound [e] := by
  intro e' he'
  rcases List.mem_singleton.1 he' with rfl
  exact ⟨h, h'⟩

/-- A log of one execution that has no lock and does not restore the context. -/
theorem broken_singleton {e : Execution} (h : e.InitFails) (h' : ¬ e.Restored) : Broken [e] :=
  ⟨⟨e, List.mem_singleton_self e, h⟩, e, List.mem_singleton_self e, h'⟩

/-- Two sound logs make a sound one. -/
theorem Sound.append (h : Sound log) (h' : Sound log') : Sound (log ++ log') := by
  intro e he
  rcases List.mem_append.1 he with he | he
  · exact h e he
  · exact h' e he

/-- A broken log stays broken with another behind it. -/
theorem Broken.append_right (h : Broken log) (log' : List Execution) : Broken (log ++ log') := by
  obtain ⟨⟨e, he, hfails⟩, e', he', hnot⟩ := h
  exact ⟨⟨e, List.mem_append_left _ he, hfails⟩, e', List.mem_append_left _ he', hnot⟩

/-- A broken log stays broken behind another. -/
theorem Broken.append_left (h : Broken log') (log : List Execution) : Broken (log ++ log') := by
  obtain ⟨⟨e, he, hfails⟩, e', he', hnot⟩ := h
  exact ⟨⟨e, List.mem_append_right _ he, hfails⟩, e', List.mem_append_right _ he', hnot⟩

/-- One thing after the other. -/
theorem Leaves.append (h : Sound log ∧ cx.Kept live cx' ∨ Broken log)
    (h' : cx.Kept live cx' → Leaves live cx' r) : Leaves live cx (r.1, log ++ r.2) := by
  rcases h with ⟨hsound, hkept⟩ | hbroken
  · rcases h' hkept with ⟨hsound', hkept'⟩ | hbroken
    · exact Or.inl ⟨hsound.append hsound', hkept.trans hkept'⟩
    · exact Or.inr (hbroken.append_left _)
  · exact Or.inr (hbroken.append_right _)

/-- The frames that a script is executed for are active, and the parked one is not among
them. -/
theorem ExecuteArgs.down_linked (h : cx.Consistent live) (x : ExecuteArgs) :
    ∃ below, Linked cx.frames (x.down cx) below ∧ below.Nodup ∧
      (∀ g ∈ below, g ∈ live ∧ (cx.frames g).dormantNext = none) ∧
      ∀ f, x.oldfp cx = some f → f ∉ below := by
  obtain ⟨-, stack, hlinked, hnodup, hstack⟩ := h
  cases hcaller : x.caller with
  | none => exact ⟨[], by rw [down, hcaller]; rfl, List.nodup_nil, by simp, by simp⟩
  | some k =>
      have hdown : x.down cx = frameBelow cx.frames k cx.fp := by rw [down, hcaller]; rfl
      refine ⟨stack.drop k, hdown ▸ hlinked.below k, hnodup.sublist (List.drop_sublist k stack),
        fun g hg => hstack g (List.mem_of_mem_drop hg), fun f hf => ?_⟩
      obtain ⟨hfp, hne⟩ := Option.filter_eq_some_iff.1 hf
      rw [hfp] at hlinked hdown
      obtain ⟨below, rfl, -⟩ := hlinked.eq_cons
      rcases k with _ | k
      · -- the script is executed for the current frame itself
        rw [hdown] at hne
        simp [frameBelow] at hne
      · exact fun hmem => (List.nodup_cons.1 hnodup).1 (List.mem_of_mem_drop hmem)

/-- Only the new frame and the parked one change. -/
theorem ExecuteArgs.enter_frames (x : ExecuteArgs) (hnew : frame ∉ live) (h : cx.Consistent live) :
    (x.enter frame cx).frames frame = ⟨x.down cx, none⟩ ∧
    (x.enter frame cx).stackPool = cx.stackPool ∧ (x.enter frame cx).fp = some frame ∧
    (∀ g ∈ live, x.oldfp cx ≠ some g → (x.enter frame cx).frames g = cx.frames g) ∧
    (x.oldfp cx = none → (x.enter frame cx).dormantFrameChain = cx.dormantFrameChain) ∧
    ∀ f, x.oldfp cx = some f →
      (x.enter frame cx).frames f = { cx.frames f with dormantNext := cx.dormantFrameChain } := by
  have hpushed : ∀ g ∈ live, Function.update cx.frames frame ⟨x.down cx, none⟩ g = cx.frames g :=
    fun g hg => ExecContext.initFrame_frames cx (x.down cx) hnew hg
  unfold enter ExecContext.initFrame ExecContext.park ExecContext.setDormantNext
  cases hold : x.oldfp cx with
  | none =>
      refine ⟨Function.update_self .., rfl, rfl, fun g hg _ => hpushed g hg, fun _ => rfl, ?_⟩
      intro f hf
      cases hf
  | some f =>
      obtain ⟨hfp, -⟩ := Option.filter_eq_some_iff.1 hold
      obtain ⟨hlive, -⟩ := h.current hfp
      have hne : frame ≠ f := fun heq => hnew (heq ▸ hlive)
      dsimp only [Option.elim_some]
      refine ⟨?_, rfl, rfl, ?_, by simp, ?_⟩
      · rw [Function.update_of_ne hne, Function.update_self]
      · intro g hg hgf
        rw [Function.update_of_ne (fun heq => hgf (by rw [heq]))]
        exact hpushed g hg
      · intro f' hf'
        obtain rfl := Option.some.inj hf'
        rw [Function.update_self, hpushed f hlive]

/-- The pool and the lock are of no concern to it. -/
theorem ExecuteArgs.enter_eq (x : ExecuteArgs) (frame : FrameId) (cx : ExecContext)
    (pool : ArenaPool) :
    x.enter frame { cx with stackPool := pool } = { x.enter frame cx with stackPool := pool } ∧
      (x.enter frame cx).threadsafe = cx.threadsafe ∧
      (x.enter frame cx).psEventsLock = cx.psEventsLock := by
  have hold : x.oldfp { cx with stackPool := pool } = x.oldfp cx := rfl
  unfold enter
  rw [hold]
  cases x.oldfp cx <;> exact ⟨rfl, rfl, rfl⟩

/-- The context with the new frame is one in order. -/
theorem ExecuteArgs.enter_consistent (h : cx.Consistent live) (hnew : frame ∉ live) :
    (x.enter frame cx).Consistent (frame :: live) := by
  obtain ⟨below, hlinked, hnodup, hbelow, hparked⟩ := x.down_linked h
  obtain ⟨hframe, hpool, hfp, hframes, -, -⟩ := x.enter_frames hnew h
  have hsame : ∀ g ∈ below, (x.enter frame cx).frames g = cx.frames g := fun g hg =>
    hframes g (hbelow g hg).1 fun hold => hparked g hold hg
  refine ExecContext.consistent_push (hpool ▸ h.pool) hfp hframe hnew ?_ hnodup fun g hg => ?_
  · exact hlinked.congr fun g hg => by rw [hsame g hg]
  · exact ⟨(hbelow g hg).1, by rw [hsame g hg]; exact (hbelow g hg).2⟩

/-- `leave` undoes `enter`. -/
theorem ExecuteArgs.leave_kept (h : cx.Consistent live) (hnew : frame ∉ live)
    (hpool : cx'.stackPool = cx.stackPool)
    (hchain : cx'.dormantFrameChain = (x.enter frame cx).dormantFrameChain)
    (hframes : ∀ g ∈ live, cx'.frames g = (x.enter frame cx).frames g) :
    cx.Kept live (x.leave cx cx') := by
  obtain ⟨-, -, -, hothers, hnochain, hparked⟩ := x.enter_frames hnew h
  unfold leave
  cases hold : x.oldfp cx with
  | none =>
      refine ⟨hpool, rfl, hchain.trans (hnochain hold), fun g hg => ?_⟩
      have hne : x.oldfp cx ≠ some g := by simp [hold]
      exact (hframes g hg).trans (hothers g hg hne)
  | some f =>
      obtain ⟨hfp, -⟩ := Option.filter_eq_some_iff.1 hold
      obtain ⟨hlive, hnone⟩ := h.current hfp
      have hrest : ∀ g ∈ live, g ≠ f → cx'.frames g = cx.frames g := by
        intro g hg hne
        refine (hframes g hg).trans (hothers g hg fun heq => ?_)
        rw [hold] at heq
        exact hne (Option.some.inj heq).symm
      obtain ⟨hchain', hframes'⟩ :=
        ExecContext.unpark_of_park hnone ((hframes f hlive).trans (hparked f hold)) hrest
      exact ⟨hpool, rfl, hchain', hframes'⟩

/-- Taking stack for the global variables fails and changes nothing, or what was taken can be
given back. -/
theorem ExecuteArgs.allocVars_cases (h : cx.stackPool.WF) (x : ExecuteArgs) :
    (∃ mark, x.allocVars cx = (cx.stackPool, mark, false)) ∨
      ∃ pool mark, x.allocVars cx = (pool, mark, true) ∧ pool.WF ∧
        ∀ cx' : ExecContext, cx'.stackPool = pool →
          mark.elim cx' cx'.freeRawStack = { cx' with stackPool := cx.stackPool } := by
  unfold allocVars
  split_ifs with hnone
  · exact Or.inr ⟨cx.stackPool, none, rfl, h, fun cx' heq => by rw [← heq]; rfl⟩
  · have hnb : x.numGlobalVars * 8 % 8 = 0 := by omega
    obtain ⟨hwf, hext⟩ := ArenaPool.allocate_extends h hnb x.answer
    cases hsp : (cx.stackPool.allocate (x.numGlobalVars * 8) x.answer).2 with
    | none =>
        left
        refine ⟨some cx.stackPool.mark, ?_⟩
        dsimp only
        rw [hsp, ArenaPool.allocate_of_none h hnb hsp]
        rfl
    | some sp =>
        right
        refine ⟨_, some cx.stackPool.mark, ?_, hwf, fun cx' heq => ?_⟩
        · dsimp only
          rw [hsp]
          rfl
        · dsimp only [Option.elim_some, ExecContext.freeRawStack]
          rw [heq, ArenaPool.release_of_extends h hwf hext]

/-- `ps_InitSelect` fails when it gets no lock. -/
theorem ExecuteArgs.initFails_iff {pool : ArenaPool} {mark : Option ℕ} (frame : FrameId)
    (hvars : x.allocVars cx = (pool, mark, true)) :
    x.InitFails cx ↔
      ((x.enter frame { cx with stackPool := pool }).psInitSelect x.newLock).2 = false := by
  obtain ⟨heq, hthreadsafe, hlock⟩ := x.enter_eq frame cx pool
  rw [ExecContext.psInitSelect_eq, heq, InitFails, hvars, hthreadsafe, hlock]
  simp [and_assoc]

/-- What is kept is restored. -/
theorem Execution.restored_of_kept (h : cx.Consistent live) (hkept : cx.Kept live cx')
    (x : ExecuteArgs) : Restored ⟨x, cx, cx'⟩ := by
  refine ⟨hkept.fp, hkept.chain, fun oldfp hfp => ?_, hkept.pool⟩
  dsimp only
  rw [hkept.frames oldfp (h.current hfp).1]

/-- The frame is popped, and the stack given back. -/
theorem ExecuteArgs.returns_kept (h : cx.Consistent live) (hnew : frame ∉ live)
    {pool : ArenaPool} {mark : Option ℕ} {cx₁ cx₂ : ExecContext}
    (hback : ∀ cx' : ExecContext, cx'.stackPool = pool →
      mark.elim cx' cx'.freeRawStack = { cx' with stackPool := cx.stackPool })
    (henter : cx₁ = x.enter frame { cx with stackPool := pool })
    (hkept : cx₁.Kept (frame :: live) cx₂) :
    cx.Kept live (x.leave cx (mark.elim cx₂ cx₂.freeRawStack)) := by
  rw [(x.enter_eq frame cx pool).1] at henter
  subst henter
  rw [hback cx₂ hkept.pool]
  exact leave_kept h hnew rfl hkept.chain fun g hg => hkept.frames g (List.mem_cons_of_mem _ hg)

/-- What the script leaves, and the events after it. -/
theorem interpreted_leaves (h : cx.Consistent live) (ok : Bool)
    (hscript : ∀ cx' : ExecContext, cx'.Consistent live → Leaves live cx' (script cx'))
    (hevents : ∀ cx' : ExecContext, cx'.Consistent live → Leaves live cx' (events cx')) :
    Leaves live cx (if ok then
      ((events (script cx).1).1.psDestroySelect, (script cx).2 ++ (events (script cx).1).2)
    else script cx) := by
  have hran := hscript cx h
  split_ifs
  · refine Leaves.append (r := (_, _)) hran fun hkept => ?_
    refine (hevents _ (h.kept hkept)).imp_left fun ⟨hsound, hkept'⟩ => ⟨hsound, ?_⟩
    exact hkept'.trans (ExecContext.kept_psDestroySelect ..)
  · exact hran

/-- **What `js_Execute` leaves.** -/
theorem jsExecute_leaves (h : cx.Consistent live) (hnew : frame ∉ live)
    (hscript : ∀ cx' : ExecContext, cx'.Consistent (frame :: live) →
      Leaves (frame :: live) cx' (script cx'))
    (hevents : ∀ cx' : ExecContext, cx'.Consistent (frame :: live) →
      Leaves (frame :: live) cx' (events cx')) :
    Leaves live cx ((jsExecute x frame script events cx).1,
      (jsExecute x frame script events cx).2 ++
        [⟨x, cx, (jsExecute x frame script events cx).1⟩]) := by
  rcases x.allocVars_cases h.pool with ⟨mark, heq⟩ | ⟨pool, mark, heq, hwf, hback⟩
  · have hr : jsExecute x frame script events cx = (cx, []) := by
      unfold jsExecute
      rw [heq]
    have hnot : ¬ x.InitFails cx := by
      rintro ⟨hvars, -⟩
      rw [heq] at hvars
      cases hvars
    rw [hr]
    have hkept := ExecContext.Kept.refl live cx
    exact Or.inl ⟨sound_singleton (Execution.restored_of_kept h hkept x) hnot, hkept⟩
  · have hmid : ExecContext.Consistent live { cx with stackPool := pool } := ⟨hwf, h.active⟩
    have henter := x.enter_consistent hmid hnew
    have hfp := (x.enter_frames hnew hmid).2.2.1
    have hinit := x.initFails_iff frame heq
    unfold jsExecute
    rw [heq]
    dsimp only
    rw [ExecContext.psInitSelect_eq] at hinit ⊢
    generalize hcx₁ : x.enter frame { cx with stackPool := pool } = cx₁ at henter hfp hinit ⊢
    cases hok : !(cx₁.threadsafe && !cx₁.psEventsLock && !x.newLock) with
    | false =>
        -- the early return leaves the new frame the current one
        refine Or.inr (broken_singleton (hinit.2 hok) fun hrestored => ?_)
        have hcurrent : cx.fp = some frame := hrestored.fp.symm.trans hfp
        exact hnew (h.current hcurrent).1
    | true =>
        have hnot : ¬ x.InitFails cx := by
          rw [hinit, hok]
          exact Bool.noConfusion
        dsimp only
        generalize hcx₂ : { cx₁ with
          psEventsLock := (cx₁.psInitSelect x.newLock).1.psEventsLock } = cx₂
        have hlocked : cx₁.Kept (frame :: live) cx₂ := by
          rw [← hcx₂]
          exact ⟨rfl, rfl, rfl, fun _ _ => rfl⟩
        have hran := interpreted_leaves (henter.kept hlocked) x.ok hscript hevents
        revert hran
        generalize (if x.ok then _ else _ : ExecContext × List Execution) = s
        rintro (⟨hsound, hkept⟩ | hbroken)
        · have hleft := ExecuteArgs.returns_kept h hnew hback hcx₁.symm (hlocked.trans hkept)
          have hrestored := Execution.restored_of_kept h hleft x
          exact Or.inl ⟨hsound.append (sound_singleton hrestored hnot), hleft⟩
        · exact Or.inr (hbroken.append_right _)

/-- **What `ReportIsNotFunction` leaves.** -/
theorem reportIsNotFunction_leaves {report : ExecContext → ExecContext × List Execution}
    (h : cx.Consistent live)
    (hreport : ∀ cx' : ExecContext, cx'.Consistent live → Leaves live cx' (report cx')) :
    Leaves live cx (reportIsNotFunction report cx) := by
  unfold reportIsNotFunction
  split
  · exact hreport cx h
  · rename_i fp hfp
    split
    · exact hreport cx h
    · rename_i down hdown
      obtain ⟨hlive, hnone⟩ := h.current hfp
      refine (hreport _ (h.lower hfp hdown)).imp_left fun ⟨hsound, hkept⟩ => ⟨hsound, ?_⟩
      have hparked : (cx.park fp).frames fp =
          { cx.frames fp with dormantNext := cx.dormantFrameChain } := Function.update_self ..
      have hothers : ∀ g, g ≠ fp → (cx.park fp).frames g = cx.frames g :=
        fun g hg => Function.update_of_ne hg ..
      obtain ⟨hchain, hframes⟩ := ExecContext.unpark_of_park hnone
        ((hkept.frames fp hlive).trans hparked)
        fun g hg hne => (hkept.frames g hg).trans (hothers g hne)
      exact ⟨hkept.pool, hfp.symm, hchain, hframes⟩

/-- **Whatever the code does, either all executions in it restore the context, or
`ps_InitSelect` has failed.** -/
theorem Code.exec_leaves {native : Bool} (code : Code native) :
    ∀ (live : List FrameId) (cx : ExecContext), cx.Consistent live →
      Leaves live cx (code.exec live cx) := by
  induction code with
  | done =>
      intro live cx _
      exact Or.inl ⟨fun e he => (List.not_mem_nil he).elim, .refl live cx⟩
  | gc rest ih =>
      intro live cx h
      have hkept := h.kept_jsGC
      exact (ih live _ (h.kept hkept)).imp_left fun hrest => ⟨hrest.1, hkept.trans hrest.2⟩
  | raw nslots answer body rest ihbody ihrest =>
      intro live cx h
      have hnb : nslots * 8 % 8 = 0 := by omega
      obtain ⟨hwf, hext⟩ := ArenaPool.allocate_extends h.pool hnb answer
      have hfails : (cx.stackPool.allocate (nslots * 8) answer).2 = none →
        (cx.stackPool.allocate (nslots * 8) answer).1 = cx.stackPool :=
          ArenaPool.allocate_of_none h.pool hnb
      rw [Code.exec]
      generalize cx.stackPool.allocate (nslots * 8) answer = q at hwf hext hfails ⊢
      obtain ⟨pool, _ | sp⟩ := q
      · obtain rfl : pool = cx.stackPool := hfails rfl
        exact ihrest live cx h
      · have hbody := ihbody live { cx with stackPool := pool } ⟨hwf, h.active⟩
        refine Leaves.append (hbody.imp_left fun hkept => ⟨hkept.1, ?_⟩) fun hkept =>
          ihrest live _ (h.kept hkept)
        exact .freeRawStack h.pool hwf hext hkept.2
  | call frame callee rest ihcallee ihrest =>
      intro live cx h
      have hnew := newFrame_not_mem live frame
      rw [Code.exec]
      generalize newFrame live frame = frame at hnew ⊢
      have hcallee := ihcallee _ _ (h.call hnew)
      refine Leaves.append (hcallee.imp_left fun hkept => ⟨hkept.1, ?_⟩) fun hkept =>
        ihrest live _ (h.kept hkept)
      obtain ⟨-, hpool, -, hchain, hframes⟩ := hkept
      refine ⟨?_, rfl, hchain, fun g hg => ?_⟩
      · have hrelease := ArenaPool.release_of_extends h.pool h.pool (.refl _)
        exact (congrArg (ArenaPool.release · cx.stackPool.mark) hpool).trans hrelease
      · have hold := ExecContext.initFrame_frames cx cx.fp hnew hg
        exact (hframes g (List.mem_cons_of_mem _ hg)).trans hold
  | report body rest ihbody ihrest =>
      intro live cx h
      exact Leaves.append (reportIsNotFunction_leaves h (ihbody live)) fun hkept =>
        ihrest live _ (h.kept hkept)
  | execute x script events rest ihscript ihevents ihrest =>
      intro live cx h
      have hleaves := jsExecute_leaves (x := x) h (newFrame_not_mem live x.frame)
        (ihscript _) (ihevents _)
      have hall := Leaves.append hleaves fun hkept => ihrest live _ (h.kept hkept)
      rw [List.append_assoc] at hall
      exact hall

end

/-- A new context: nothing is active, and nothing is dormant. -/
def ExecContext.start (threadsafe psEventsLock : Bool) (pool : ArenaPool)
    (frames : FrameId → ExecFrame) : ExecContext :=
  ⟨threadsafe, psEventsLock, pool, none, none, frames⟩

/-- **`js_Execute` restores the context, unless `ps_InitSelect` fails**: in whatever code
is run on a new context, and however deep the executions in it are, every call of
`js_Execute` leaves the current frame, the dormant frames, the link of the current frame
and the stack as they were, if and only if each of the calls that asks for a lock gets
one.  Without it the call returns before the epilogue.  Source: `js_Execute`
(lines 1347-1468 of `js/src/jsinterp.c`) and `ps_InitSelect` (lines 163-175 of
`js/src/ext/psselect.c`). -/
theorem js_execute_restores_iff (threadsafe psEventsLock : Bool)
    (pool : { pool : ArenaPool // pool.WF }) (frames : FrameId → ExecFrame) (code : Code true) :
    let log := (code.exec [] (.start threadsafe psEventsLock pool frames)).2
    (∀ e ∈ log, e.Restored) ↔ ∀ e ∈ log, ¬ e.InitFails := by
  have hstart : (ExecContext.start threadsafe psEventsLock pool frames).Consistent [] :=
    ⟨pool.2, [], rfl, List.nodup_nil, by simp⟩
  rcases code.exec_leaves [] _ hstart with ⟨hsound, -⟩ | ⟨⟨e, he, hfails⟩, e', he', hnot⟩
  · exact ⟨fun _ e he => (hsound e he).2, fun _ e he => (hsound e he).1⟩
  · constructor
    · intro hall
      exact absurd (hall e' he') hnot
    · intro hall
      exact absurd hfails (hall e he)

/-- There is no memory for the lock: the frame of the call, at 100, stays the current one, and
the two global variables stay on the stack. -/
theorem js_execute_abandons_frame :
    ∃ pool : { pool : ArenaPool // pool.WF },
      ∃ e ∈ ((Code.execute ⟨none, 2, 100, true, none, false⟩ .done .done .done).exec []
          (.start true false pool fun _ => ⟨none, none⟩)).2,
        e.entry.fp = none ∧ e.exit.fp = some 100 ∧ e.entry.stackPool.mark = 4128 ∧
          e.exit.stackPool.mark = 4144 ∧ ¬ e.Restored := by
  have hwf : ArenaPool.WF ⟨[], ⟨4096, 4128, 8192, 4128⟩, [], 1024⟩ := by
    refine ⟨rfl, fun a ha => ?_, List.pairwise_singleton _ _⟩
    rcases List.mem_singleton.1 ha with rfl
    constructor <;> decide
  refine ⟨⟨_, hwf⟩, _, List.mem_singleton_self _, rfl, rfl, rfl, rfl, fun hrestored => ?_⟩
  cases hrestored.fp

end ProntoScript
