/-
# A pass of `ps_HandleSelect`

`js/src/ext/psselect.c`, lines 191-336, over the registry as the map keyed by
descriptor.  A pass asks `select` for the interests of all events, subtracts the
time it took from their timeouts, and copies the events that were triggered,
timed out or errored into three lists; then it calls the callbacks of one of the
lists.  The copies are dispatched one after the other without another look at
the registry.

`select` fails, returns 0, or returns a positive number.  In the first case it
leaves the three sets as they were asked, in the second it empties them.
-/

import ProntoScript.Select.Event

namespace ProntoScript

/-- What `select` returns, with the descriptors left in the three sets. -/
inductive SelectReply
  | ready (rdfs wrfs erfs : List ℤ)
  | timedOut
  | failed
deriving DecidableEq

/-- What the outside answers during the first half of a pass: `select`, and the
clock before and after it. -/
structure SelectAnswer where
  reply : SelectReply
  start : Timespec
  stop : Timespec
deriving DecidableEq

/-- `FD_ISSET(ev->fd, &rdfs) || FD_ISSET(ev->fd, &wrfs)` after `select`. -/
def SelectReply.triggers (reply : SelectReply) (fd : ℤ) (ev : PSSelectEvent) : Bool :=
  match reply with
  | .ready rdfs wrfs _ =>
      ev.wants PSFDSET_READ && decide (fd ∈ rdfs) || ev.wants PSFDSET_WRITE && decide (fd ∈ wrfs)
  | .timedOut => false
  | .failed => ev.wants PSFDSET_READ || ev.wants PSFDSET_WRITE

/-- `FD_ISSET(ev->fd, &erfs)` after `select`: every event asks for errors. -/
def SelectReply.errs (reply : SelectReply) (fd : ℤ) : Bool :=
  match reply with
  | .ready _ _ erfs => decide (fd ∈ erfs)
  | .timedOut => false
  | .failed => true

/-- The event has timed out. -/
def PSSelectEvent.expired (ev : PSSelectEvent) : Bool :=
  ev.timeout.tv_sec == 0 && ev.timeout.tv_nsec == 0

/-- Subtract a duration from the timeout of an event. -/
def PSSelectEvent.elapse (duration : Timespec) (ev : PSSelectEvent) : PSSelectEvent :=
  { ev with timeout := updateTimeout duration ev.timeout }

/-- A copied event with the one of its callbacks that will be called. -/
structure Dispatch where
  fd : ℤ
  obj : ObjId
  callback : PSSelectCallback
deriving DecidableEq, Repr

namespace Registry

/-- Subtract a duration from the timeout of every event. -/
def updateTimeouts (reg : Registry) (duration : Timespec) : Registry where
  entries := reg.entries.map fun s => ⟨s.1, s.2.elapse duration⟩
  nodupKeys := by
    have hkeys : (reg.entries.map fun s =>
        (⟨s.1, s.2.elapse duration⟩ : (_ : ℤ) × PSSelectEvent)).keys = reg.entries.keys := by
      simp [List.keys]
    rw [List.NodupKeys, hkeys]
    exact reg.nodupKeys

/-- Copy the events that pass a test: each copy goes in front of those made before. -/
def copies (reg : Registry) (test : ℤ → PSSelectEvent → Bool)
    (callback : PSSelectEvent → PSSelectCallback) : List Dispatch :=
  reg.entries.foldl (fun l s => if test s.1 s.2 then ⟨s.1, s.2.obj, callback s.2⟩ :: l else l) []

/-- The events of the updated registry by descriptor. -/
theorem lookup_updateTimeouts (reg : Registry) (duration : Timespec) (fd : ℤ) :
    (reg.updateTimeouts duration).lookup fd =
      (reg.lookup fd).map (PSSelectEvent.elapse duration) := by
  change List.dlookup fd (reg.entries.map _) = (List.dlookup fd reg.entries).map _
  induction reg.entries with
  | nil => rfl
  | cons s l ih =>
      obtain ⟨k, ev⟩ := s
      by_cases hk : k = fd
      · subst hk
        simp only [List.map_cons, List.dlookup_cons_eq, Option.map_some]
      · rw [List.map_cons, List.dlookup_cons_ne _ _ (Ne.symm hk),
          List.dlookup_cons_ne _ _ (Ne.symm hk)]
        exact ih

end Registry

/-- `ps_HandleSelect` up to the calls of the callbacks: the registry with the timeouts
updated, and the copies in the order they will be dispatched; `none` (`JS_FALSE`) if there
are no events. Source: lines 192-317 of `js/src/ext/psselect.c`. -/
def psHandleSelect (reg : Registry) (a : SelectAnswer) : Option (Registry × List Dispatch) :=
  if reg.entries = [] then none
  else
    let reg := reg.updateTimeouts (diffTimespec a.start a.stop)
    let triggered := reg.copies a.reply.triggers PSSelectEvent.func
    let timedout := reg.copies (fun _ ev => ev.expired) PSSelectEvent.func
    let errored := reg.copies (fun fd _ => a.reply.errs fd) PSSelectEvent.errfunc
    match a.reply with
    | .ready _ _ _ => some (reg, triggered)
    | .timedOut => some (reg, timedout)
    | .failed => some (reg, errored)

/-- Without events there is nothing to do, and with events there is. -/
theorem psHandleSelect_eq_none {reg : Registry} {a : SelectAnswer} :
    psHandleSelect reg a = none ↔ reg.entries = [] := by
  unfold psHandleSelect
  by_cases hreg : reg.entries = []
  · simp [hreg]
  · rw [if_neg hreg]
    cases a.reply <;> simp [hreg]

/-- A pass takes the time it waited off the timeouts. -/
theorem psHandleSelect_eq_some {reg reg' : Registry} {a : SelectAnswer} {pending : List Dispatch}
    (h : psHandleSelect reg a = some (reg', pending)) :
    reg.entries ≠ [] ∧ reg' = reg.updateTimeouts (diffTimespec a.start a.stop) := by
  unfold psHandleSelect at h
  split_ifs at h with hne
  refine ⟨hne, ?_⟩
  cases hr : a.reply <;> simp only [hr, Option.some.injEq, Prod.mk.injEq] at h <;> exact h.1.symm

end ProntoScript
