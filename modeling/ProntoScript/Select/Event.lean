/-
# Events of the select mechanism

`js/src/ext/psselect.h` (`PSFDSet`, `PSSelectCallback`) and the data part of
`js/src/ext/psselect.c`: `PSSelectEvent`, the timeouts, and the registry as the
map keyed by descriptor that the list of events is meant to be.

A descriptor is a C `int`.  A timeout is a `struct timespec`, with the pair
`(-1, -1)` standing for no timeout.  The registry keeps its entries in the
order of the list, the one added last first: adding removes the entry of the
same descriptor and puts the new one in front (`AList.insert`), removing
deletes the entry (`AList.erase`).
-/

import Mathlib.Data.List.AList

namespace ProntoScript

/-- A `JSObject *`; every object made during a run has its own. -/
abbrev ObjId := ℕ

/-- The four functions the extension registers as `PSSelectCallback`. -/
inductive PSSelectCallback
  | tcpSocketSelectCallback
  | tcpSocketSelectErrorCallback
  | udpSocketSelectCallback
  | udpSocketSelectErrorCallback
deriving DecidableEq, Repr

/-- `PSFDSet`: a set of interests, one bit each. Source: lines 59-62 of
`js/src/ext/psselect.h`. -/
abbrev PSFDSet := ℕ

/-- `PSFDSET_READ = 1 << 0`. -/
def PSFDSET_READ : PSFDSet := 1

/-- `PSFDSET_WRITE = 1 << 1`. -/
def PSFDSET_WRITE : PSFDSet := 2

/-- `struct timespec`. -/
structure Timespec where
  tv_sec : ℤ
  tv_nsec : ℤ
deriving DecidableEq, Repr

/-- `NS_PER_SEC`. Source: line 47 of `js/src/ext/psselect.c`. -/
def NS_PER_SEC : ℤ := 1000000000

/-- `no_timeout`. Source: lines 79-83 of `js/src/ext/psselect.c`. -/
def noTimeout (timeout : Timespec) : Bool := timeout.tv_sec == -1 && timeout.tv_nsec == -1

/-- `set_no_timeout`. Source: lines 85-90 of `js/src/ext/psselect.c`. -/
def setNoTimeout : Timespec := ⟨-1, -1⟩

/-- `diff_timespec`: the time from `start` to `stop`. Source: lines 95-106 of
`js/src/ext/psselect.c`. -/
def diffTimespec (start stop : Timespec) : Timespec :=
  let diff : Timespec := ⟨stop.tv_sec - start.tv_sec, stop.tv_nsec - start.tv_nsec⟩
  if diff.tv_nsec < 0 then ⟨diff.tv_sec - 1, diff.tv_nsec + NS_PER_SEC⟩ else diff

/-- `update_timeout`: subtract a duration from a timeout, never below zero. Source:
lines 111-132 of `js/src/ext/psselect.c`. -/
def updateTimeout (duration timeout : Timespec) : Timespec :=
  if noTimeout timeout then timeout
  else
    let t : Timespec := ⟨timeout.tv_sec - duration.tv_sec, timeout.tv_nsec - duration.tv_nsec⟩
    let t := if t.tv_nsec < 0 then ⟨t.tv_sec - 1, t.tv_nsec + NS_PER_SEC⟩ else t
    if t.tv_sec < 0 then ⟨0, 0⟩ else t

/-- The timeout `ps_AddSelect` stores for its `int timeout` in milliseconds. -/
def addTimeout (timeout : ℤ) : Timespec :=
  if timeout = -1 then setNoTimeout
  else ⟨timeout.tdiv 1000, timeout.tmod 1000 * 1000000⟩

/-- `PSSelectEvent` without its descriptor, which is its key, and its links. Source:
lines 52-62 of `js/src/ext/psselect.c`. -/
structure PSSelectEvent where
  fdsetmask : PSFDSet
  obj : ObjId
  func : PSSelectCallback
  errfunc : PSSelectCallback
  timeout : Timespec
deriving DecidableEq, Repr

/-- The registered events by descriptor, the one added last first. -/
abbrev Registry := AList fun _ : ℤ => PSSelectEvent

/-- `ev->fdsetmask & mask`. -/
def PSSelectEvent.wants (ev : PSSelectEvent) (mask : PSFDSet) : Bool := ev.fdsetmask &&& mask != 0

end ProntoScript
