/-
# `ps_AddSelect` and `ps_RemoveSelect` on the linked list

`js/src/ext/psselect.c`, lines 339-404.  The events live in a memory of cells
with `prev` and `next` pointers and `ps_Events` points at the first one.
`JS_free` takes the cell out of the allocated ones and leaves its bytes alone:
the loop of `ps_RemoveSelect` reads `ev->next` after `JS_free(cx, ev)`, and the
model gives it the pointer that was stored last.  A later `JS_malloc` may hand
the same address out again.

A walk along `next` need not end, so the loop has a fuel argument; a call is
what it does with enough fuel (`SelectCall.Step`).
-/

import ProntoScript.Foundation.LinkedList
import ProntoScript.Foundation.Transition
import ProntoScript.Select.Event

namespace ProntoScript

open LinkedList

/-- The memory of events and `ps_Events`. -/
structure SelectHeap where
  mem : ℕ → Cell (Σ _ : ℤ, PSSelectEvent)
  allocated : ℕ → Bool
  psEvents : Option ℕ

namespace SelectHeap

/-- The memory before the first call: nothing is allocated, `ps_Events` is `NULL`. -/
def start : SelectHeap where
  mem _ :=
    ⟨⟨0, ⟨0, 0, .tcpSocketSelectCallback, .tcpSocketSelectErrorCallback, ⟨0, 0⟩⟩⟩, none, none⟩
  allocated _ := false
  psEvents := none

/-- The store `a->prev = q`. -/
def setPrev (h : SelectHeap) (a : ℕ) (q : Option ℕ) : SelectHeap :=
  { h with mem := Function.update h.mem a { h.mem a with prev := q } }

/-- The store `a->next = q`. -/
def setNext (h : SelectHeap) (a : ℕ) (q : Option ℕ) : SelectHeap :=
  { h with mem := Function.update h.mem a { h.mem a with next := q } }

/-- `JS_free`: the cell is not allocated any more; its bytes stay. -/
def free (h : SelectHeap) (a : ℕ) : SelectHeap :=
  { h with allocated := Function.update h.allocated a false }

/-- `if (ev->prev != NULL) ev->prev = ev->next`: the store goes to the event
itself, where the `next` of its predecessor is meant. -/
def unlinkPrev (h : SelectHeap) (ev : ℕ) : SelectHeap :=
  if (h.mem ev).prev ≠ none then h.setPrev ev (h.mem ev).next else h

/-- `if (ev->next != NULL) ev->next->prev = ev->prev`. -/
def unlinkNext (h : SelectHeap) (ev : ℕ) : SelectHeap :=
  match (h.mem ev).next with
  | some nx => h.setPrev nx (h.mem ev).prev
  | none => h

/-- `if (ev == ps_Events) ps_Events = ev->next`. -/
def unlinkFirst (h : SelectHeap) (ev : ℕ) : SelectHeap :=
  if h.psEvents = some ev then { h with psEvents := (h.mem ev).next } else h

/-- The body of the loop of `ps_RemoveSelect` for an event with the descriptor
looked for. -/
def unlink (h : SelectHeap) (ev : ℕ) : SelectHeap :=
  (((h.unlinkPrev ev).unlinkNext ev).unlinkFirst ev).free ev

/-- One round of the loop of `ps_RemoveSelect`, before `ev = ev->next`. -/
def round (fd : ℤ) (h : SelectHeap) (ev : ℕ) : SelectHeap :=
  if (h.mem ev).data.1 = fd then h.unlink ev else h

/-- The loop of `ps_RemoveSelect` from the event `ev` on. -/
def removeLoop (fd : ℤ) : ℕ → Option ℕ → SelectHeap → Option SelectHeap
  | _, none, h => some h
  | 0, some _, _ => none
  | n + 1, some ev, h =>
      removeLoop fd n ((h.round fd ev).mem ev).next (h.round fd ev)

/-- `ps_RemoveSelect(cx, fd)`. Source: `ps_RemoveSelect`, lines 383-404 of
`js/src/ext/psselect.c`. -/
def psRemoveSelect (fuel : ℕ) (h : SelectHeap) (fd : ℤ) : Option SelectHeap :=
  removeLoop fd fuel h.psEvents h

/-- `JS_malloc` and the stores that fill in the new event. -/
def malloc (h : SelectHeap) (event : ℕ) (x : Σ _ : ℤ, PSSelectEvent) : SelectHeap :=
  { h with
    allocated := Function.update h.allocated event true
    mem := Function.update h.mem event ⟨x, none, none⟩ }

/-- Add the new event to the list: `event->next = ps_Events`, `ps_Events->prev = event`
and `ps_Events = event`. -/
def link (h : SelectHeap) (event : ℕ) : SelectHeap :=
  match h.psEvents with
  | some first =>
      { (h.setNext event (some first)).setPrev first (some event) with psEvents := some event }
  | none => { h with psEvents := some event }

/-- `ps_AddSelect(cx, fd, fdsetmask, obj, func, errfunc, timeout)`, given what `JS_malloc`
returns. Source: `ps_AddSelect`, lines 339-381 of `js/src/ext/psselect.c`. -/
def psAddSelect (fuel : ℕ) (h : SelectHeap) (fd : ℤ) (fdsetmask : PSFDSet) (obj : ObjId)
    (func errfunc : PSSelectCallback) (timeout : ℤ) (event : Option ℕ) : Option SelectHeap :=
  match event with
  | none => some h
  | some event =>
      match (h.malloc event
          ⟨fd, ⟨fdsetmask, obj, func, errfunc, addTimeout timeout⟩⟩).psRemoveSelect fuel fd with
      | none => none
      | some h => some (h.link event)

end SelectHeap

/-- A call of the two functions, with the answer of `JS_malloc` to the first. -/
inductive SelectCall
  | addSelect (fd : ℤ) (fdsetmask : PSFDSet) (obj : ObjId) (func errfunc : PSSelectCallback)
      (timeout : ℤ) (event : Option ℕ)
  | removeSelect (fd : ℤ)
deriving DecidableEq

namespace SelectCall

/-- The call on the heap, with a bound on the rounds of the loop. -/
def exec (fuel : ℕ) (h : SelectHeap) : SelectCall → Option SelectHeap
  | addSelect fd mask obj func errfunc timeout event =>
      h.psAddSelect fuel fd mask obj func errfunc timeout event
  | removeSelect fd => h.psRemoveSelect fuel fd

/-- `JS_malloc` answers with an address that is not allocated. -/
def Answered (h : SelectHeap) : SelectCall → Prop
  | addSelect _ _ _ _ _ _ (some event) => h.allocated event = false
  | _ => True

/-- The descriptor whose event is removed, alone or to make room for a new one. -/
def removes : SelectCall → Option ℤ
  | removeSelect fd => some fd
  | addSelect fd _ _ _ _ _ (some _) => some fd
  | addSelect _ _ _ _ _ _ none => none

/-- What the call is meant to do to the map keyed by descriptor. -/
def onMap (m : Registry) : SelectCall → Registry
  | addSelect _ _ _ _ _ _ none => m
  | addSelect fd mask obj func errfunc timeout (some _) =>
      m.insert fd ⟨mask, obj, func, errfunc, addTimeout timeout⟩
  | removeSelect fd => m.erase fd

/-- A call on the heap, with the map it is meant to keep carried along. -/
def Step (s : SelectHeap × Registry) (c : SelectCall) (t : SelectHeap × Registry) : Prop :=
  c.Answered s.1 ∧ (∃ fuel, c.exec fuel s.1 = some t.1) ∧ t.2 = c.onMap s.2

end SelectCall

/-- The walk from `ps_Events` meets the entries of the map in order, linked both
ways, and none of the cells it meets was released. -/
def SelectHeap.Represents (h : SelectHeap) (m : Registry) : Prop :=
  ∃ l, Chain h.mem none h.psEvents l ∧ l.map Prod.snd = m.entries ∧
    ∀ a ∈ l.map Prod.fst, h.allocated a = true

end ProntoScript
