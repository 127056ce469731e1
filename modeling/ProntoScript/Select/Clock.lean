/-
# Timeouts over the passes of `ps_HandleSelect`

`js/src/ext/psselect.c`, lines 79-132 and 252-260.  A pass measures how long its
`select` took and walks the list of events, subtracting the duration from the
timeout of each.  Whatever the list has become by then (its `prev` pointers need
not mirror its `next` pointers), a walk that ends meets no event twice, so an
event that is linked loses the duration exactly once.  Over the passes it stays
registered through, a timeout of `t` milliseconds becomes
`max 0 (t * 1000000 - (d₁ + … + dₙ))` nanoseconds
(`SelectHeap.timeout_accounting`): saturating at each pass is saturating once at
the end.

`diffTimespec?`, `updateTimeout?` and `addTimeout?` are the same computations in
64-bit and 32-bit words, `none` where one overflows.
-/

import Mathlib.Algebra.Order.BigOperators.Group.List
import Mathlib.Algebra.Ring.Int.Defs
import ProntoScript.Select.Pass
import ProntoScript.Select.Refinement

namespace ProntoScript

open LinkedList Transition

/-! ### Durations -/

namespace Timespec

/-- In nanoseconds. -/
def ns (t : Timespec) : ℤ := t.tv_sec * NS_PER_SEC + t.tv_nsec

/-- Normalised: less than a second of nanoseconds, and not negative. -/
def Normalised (t : Timespec) : Prop := 0 ≤ t.tv_sec ∧ 0 ≤ t.tv_nsec ∧ t.tv_nsec < NS_PER_SEC

instance (t : Timespec) : Decidable t.Normalised := inferInstanceAs (Decidable (_ ∧ _ ∧ _))

/-- Two readings of the monotonic clock, one after the other. -/
def Monotonic (start stop : Timespec) : Prop :=
  start.Normalised ∧ stop.Normalised ∧ stop.tv_sec < 2 ^ 63 ∧ start.ns ≤ stop.ns

instance (start stop : Timespec) : Decidable (Monotonic start stop) :=
  inferInstanceAs (Decidable (_ ∧ _ ∧ _ ∧ _))

variable {t d start stop : Timespec}

/-- A normalised timeout is not the sentinel. -/
theorem Normalised.noTimeout (h : t.Normalised) : noTimeout t = false := by
  obtain ⟨hsec, -, -⟩ := h
  simp only [ProntoScript.noTimeout, Bool.and_eq_false_iff, beq_eq_false_iff_ne]
  omega

/-- The difference of two readings is normalised, and the time between them. -/
theorem Monotonic.diff (h : Monotonic start stop) :
    (diffTimespec start stop).Normalised ∧ (diffTimespec start stop).ns = stop.ns - start.ns := by
  obtain ⟨⟨hs, hn, hlt⟩, ⟨hs', hn', hlt'⟩, -, hle⟩ := h
  unfold Normalised diffTimespec ns at *
  unfold NS_PER_SEC at *
  dsimp only
  split_ifs with hneg
  · dsimp only
    omega
  · dsimp only
    omega

/-- **One pass:** the timeout loses the duration, but not more than it has. -/
theorem Normalised.update (ht : t.Normalised) (hd : d.Normalised) :
    (updateTimeout d t).Normalised ∧ (updateTimeout d t).ns = max 0 (t.ns - d.ns) := by
  have hsentinel := ht.noTimeout
  obtain ⟨hs, hn, hlt⟩ := ht
  obtain ⟨hs', hn', hlt'⟩ := hd
  unfold updateTimeout
  rw [hsentinel]
  unfold Normalised ns at *
  unfold NS_PER_SEC at *
  dsimp only [Bool.false_eq_true, if_false]
  split_ifs with hneg hzero hzero <;> dsimp only at * <;> omega

/-- A number of milliseconds, from 0 on, is stored normalised and exact. Source:
`ps_AddSelect`, lines 359-366 of `js/src/ext/psselect.c`. -/
theorem addTimeout_of_nonneg {t : ℤ} (ht : 0 ≤ t) :
    (addTimeout t).Normalised ∧ (addTimeout t).ns = t * 1000000 := by
  unfold addTimeout Normalised ns NS_PER_SEC
  rw [if_neg (by omega), Int.tdiv_eq_ediv_of_nonneg ht, Int.tmod_eq_emod_of_nonneg ht]
  dsimp only
  omega

end Timespec

/-! ### The same in machine words -/

/-- A `long` or `time_t` result of 64 bits; `none` is an overflow. -/
def long? (x : ℤ) : Option ℤ := if -(2 ^ 63) ≤ x ∧ x < 2 ^ 63 then some x else none

/-- An `int` result of 32 bits; `none` is an overflow. -/
def int? (x : ℤ) : Option ℤ := if -(2 ^ 31) ≤ x ∧ x < 2 ^ 31 then some x else none

/-- `diff_timespec`. Source: lines 95-106 of `js/src/ext/psselect.c`. -/
def diffTimespec? (start stop : Timespec) : Option Timespec := do
  let sec ← long? (stop.tv_sec - start.tv_sec)
  let nsec ← long? (stop.tv_nsec - start.tv_nsec)
  if nsec < 0 then
    let nsec ← long? (nsec + NS_PER_SEC)
    let sec ← long? (sec - 1)
    return ⟨sec, nsec⟩
  else return ⟨sec, nsec⟩

/-- `update_timeout`. Source: lines 111-132 of `js/src/ext/psselect.c`. -/
def updateTimeout? (duration timeout : Timespec) : Option Timespec :=
  if noTimeout timeout then some timeout
  else do
    let sec ← long? (timeout.tv_sec - duration.tv_sec)
    let nsec ← long? (timeout.tv_nsec - duration.tv_nsec)
    if nsec < 0 then
      let nsec ← long? (nsec + NS_PER_SEC)
      let sec ← long? (sec - 1)
      return if sec < 0 then ⟨0, 0⟩ else ⟨sec, nsec⟩
    else return if sec < 0 then ⟨0, 0⟩ else ⟨sec, nsec⟩

/-- The timeout `ps_AddSelect` stores. Source: lines 359-366 of `js/src/ext/psselect.c`. -/
def addTimeout? (timeout : ℤ) : Option Timespec :=
  if timeout = -1 then some setNoTimeout
  else do
    let sec ← int? (timeout.tdiv 1000)
    let msec ← int? (timeout.tmod 1000)
    let nsec ← int? (msec * 1000000)
    return ⟨sec, nsec⟩

/-- What a pass stores: the duration is measured, then subtracted. -/
def passTimeout? (timeout : Timespec) (reading : Timespec × Timespec) : Option Timespec :=
  (diffTimespec? reading.1 reading.2).bind fun duration => updateTimeout? duration timeout

/-- The timeout stored after passes with the given clock readings, in machine words. -/
def storedTimeout? (timeout : ℤ) (readings : List (Timespec × Timespec)) : Option Timespec :=
  (addTimeout? timeout).bind fun stored => readings.foldlM passTimeout? stored

/-- What the readings subtract, without bounds on the words. -/
def elapsed (timeout : Timespec) (readings : List (Timespec × Timespec)) : Timespec :=
  readings.foldl (fun t r => updateTimeout (diffTimespec r.1 r.2) t) timeout

/-- Readings the subtraction from a timeout of `timeout` milliseconds has room for:
all of them unless the timeout is a second or more below zero. -/
def Roomy (timeout : ℤ) (r : Timespec × Timespec) : Prop :=
  -1000 < timeout ∨ (diffTimespec r.1 r.2).tv_sec ≤ 2 ^ 63 - 2147484

instance (timeout : ℤ) (r : Timespec × Timespec) : Decidable (Roomy timeout r) :=
  inferInstanceAs (Decidable (_ ∨ _))

section Words

open Timespec

variable {t d start stop : Timespec} {x timeout : ℤ} {readings : List (Timespec × Timespec)}

/-- What fits a `long` is one. -/
theorem long?_eq (hlo : -(2 ^ 63) ≤ x) (hhi : x < 2 ^ 63) : long? x = some x := if_pos ⟨hlo, hhi⟩

/-- What fits an `int` is one. -/
theorem int?_eq (hlo : -(2 ^ 31) ≤ x) (hhi : x < 2 ^ 31) : int? x = some x := if_pos ⟨hlo, hhi⟩

/-- The difference of two readings overflows nowhere. -/
theorem Timespec.Monotonic.diff? (h : Monotonic start stop) :
    diffTimespec? start stop = some (diffTimespec start stop) := by
  obtain ⟨⟨hs, hn, hlt⟩, ⟨hs', hn', hlt'⟩, hword, hle⟩ := h
  unfold ns NS_PER_SEC at *
  unfold diffTimespec? diffTimespec NS_PER_SEC
  rw [long?_eq (by omega) (by omega), long?_eq (by omega) (by omega)]
  by_cases hneg : stop.tv_nsec - start.tv_nsec < 0
  · simp [hneg, long?_eq (x := stop.tv_nsec - start.tv_nsec + 1000000000) (by omega) (by omega),
      long?_eq (x := stop.tv_sec - start.tv_sec - 1) (by omega) (by omega)]
  · simp [hneg]

/-- What `ps_AddSelect` and the passes store, as far as the words matter. -/
def Storable (t : Timespec) : Prop :=
  -2147483 ≤ t.tv_sec ∧ t.tv_sec ≤ 2147483 ∧ -NS_PER_SEC < t.tv_nsec ∧ t.tv_nsec < NS_PER_SEC

/-- The subtraction overflows nowhere if the seconds have room for it. -/
theorem Storable.update? (ht : Storable t) (hd : d.Normalised) (hword : d.tv_sec < 2 ^ 63)
    (hroom : 0 ≤ t.tv_sec ∨ d.tv_sec ≤ 2 ^ 63 - 2147484) :
    updateTimeout? d t = some (updateTimeout d t) := by
  obtain ⟨hlo, hhi, hnlo, hnhi⟩ := ht
  obtain ⟨hs, hn, hlt⟩ := hd
  unfold updateTimeout? updateTimeout
  unfold NS_PER_SEC at *
  by_cases hsent : noTimeout t
  · simp [hsent]
  · rw [if_neg hsent, if_neg hsent, long?_eq (by omega) (by omega), long?_eq (by omega) (by omega)]
    by_cases hneg : t.tv_nsec - d.tv_nsec < 0
    · simp [hneg, long?_eq (x := t.tv_nsec - d.tv_nsec + 1000000000) (by omega) (by omega),
        long?_eq (x := t.tv_sec - d.tv_sec - 1) (by omega) (by omega)]
    · simp [hneg]

/-- After a pass the seconds are not negative, the sentinel apart. -/
theorem Storable.update (ht : Storable t) (hd : d.Normalised) :
    Storable (updateTimeout d t) ∧
      (noTimeout (updateTimeout d t) = true ∨ 0 ≤ (updateTimeout d t).tv_sec) := by
  by_cases hsent : noTimeout t
  · have hsame : updateTimeout d t = t := if_pos hsent
    rw [hsame]
    exact ⟨ht, .inl hsent⟩
  · obtain ⟨hlo, hhi, hnlo, hnhi⟩ := ht
    obtain ⟨hs, hn, hlt⟩ := hd
    unfold updateTimeout
    rw [if_neg hsent]
    unfold Storable
    unfold NS_PER_SEC at *
    dsimp only
    split_ifs with hneg hzero hzero <;> dsimp only at * <;> omega

/-- The seconds have room for every duration, or there is nothing to subtract. -/
def HasRoom (t : Timespec) (readings : List (Timespec × Timespec)) : Prop :=
  noTimeout t = true ∨ 0 ≤ t.tv_sec ∨
    ∀ r ∈ readings, (diffTimespec r.1 r.2).tv_sec ≤ 2 ^ 63 - 2147484

/-- **Nothing overflows over a list of passes** that the stored timeout has room for. -/
theorem foldlM_passTimeout? (ht : Storable t) (hroom : HasRoom t readings)
    (hclock : ∀ r ∈ readings, Monotonic r.1 r.2) :
    readings.foldlM passTimeout? t = some (elapsed t readings) := by
  induction readings generalizing t with
  | nil => rfl
  | cons r readings ih =>
      have hr := hclock r (by simp)
      have hnorm := hr.diff.1
      have hword : (diffTimespec r.1 r.2).tv_sec < 2 ^ 63 := by
        obtain ⟨⟨hs, -, -⟩, -, hlt, -⟩ := hr
        unfold diffTimespec
        dsimp only
        split_ifs <;> dsimp only <;> omega
      have hstep : passTimeout? t r = some (updateTimeout (diffTimespec r.1 r.2) t) := by
        unfold passTimeout?
        rw [hr.diff?, Option.bind_some]
        rcases hroom with hsent | hroom
        · rw [updateTimeout?, if_pos hsent, updateTimeout, if_pos hsent]
        · exact ht.update? hnorm hword (hroom.imp_right fun h => h r (by simp))
      obtain ⟨ht', hroom'⟩ := ht.update hnorm
      rw [List.foldlM_cons, hstep, Option.bind_eq_bind, Option.bind_some]
      exact ih ht' (hroom'.imp_right .inl) fun r' hr' => hclock r' (by simp [hr'])

/-- What `ps_AddSelect` stores for an `int`, and the room it leaves. -/
theorem addTimeout?_eq (hlo : -(2 ^ 31) ≤ timeout) (hhi : timeout < 2 ^ 31) :
    addTimeout? timeout = some (addTimeout timeout) ∧ Storable (addTimeout timeout) ∧
      (-1000 < timeout → 0 ≤ (addTimeout timeout).tv_sec ∨ timeout = -1) := by
  unfold addTimeout? addTimeout Storable NS_PER_SEC
  by_cases hsent : timeout = -1
  · subst hsent
    simp [setNoTimeout]
  · have hmod : timeout.tdiv 1000 * 1000 + timeout.tmod 1000 = timeout := by
      have := Int.tmod_add_mul_tdiv timeout 1000
      omega
    have hmlo : -1000 < timeout.tmod 1000 := Int.lt_tmod_of_pos timeout (by decide)
    have hmhi : timeout.tmod 1000 < 1000 := Int.tmod_lt_of_pos timeout (by decide)
    -- the remainder has the sign of the timeout
    have hpos : 0 ≤ timeout → 0 ≤ timeout.tmod 1000 := Int.tmod_nonneg 1000
    have hneg : timeout ≤ 0 → timeout.tmod 1000 ≤ 0 := fun h => by
      have := Int.tmod_nonneg 1000 (Int.neg_nonneg.2 h)
      rw [Int.neg_tmod] at this
      omega
    rw [if_neg hsent, if_neg hsent, int?_eq (by omega) (by omega), int?_eq (by omega) (by omega)]
    refine ⟨?_, ⟨?_, ?_, ?_, ?_⟩, fun hgt => .inl ?_⟩
    · simp [int?_eq (x := timeout.tmod 1000 * 1000000) (by omega) (by omega)]
    all_goals dsimp only; omega

/-- **No intermediate result overflows** for readings the timeout has room for. -/
theorem storedTimeout?_eq (hlo : -(2 ^ 31) ≤ timeout) (hhi : timeout < 2 ^ 31)
    (hclock : ∀ r ∈ readings, Monotonic r.1 r.2) (hroom : ∀ r ∈ readings, Roomy timeout r) :
    storedTimeout? timeout readings = some (elapsed (addTimeout timeout) readings) := by
  obtain ⟨hadd, hstore, hsec⟩ := addTimeout?_eq hlo hhi
  unfold storedTimeout?
  rw [hadd, Option.bind_some]
  refine foldlM_passTimeout? hstore ?_ hclock
  by_cases hgt : -1000 < timeout
  · rcases hsec hgt with hnn | rfl
    · exact .inr (.inl hnn)
    · exact .inl rfl
  · exact .inr (.inr fun r hr => (hroom r hr).resolve_left hgt)

end Words

/-! ### The loop of a pass over the linked list -/

namespace SelectHeap

/-- `update_timeout(duration, &(ev->timeout))`. -/
def elapse (h : SelectHeap) (duration : Timespec) (ev : ℕ) : SelectHeap :=
  { h with
    mem := Function.update h.mem ev
      { h.mem ev with data := ⟨(h.mem ev).data.1, (h.mem ev).data.2.elapse duration⟩ } }

/-- The loop of `ps_HandleSelect` after `select`, from the event `ev` on; the copies it
makes are those of `psHandleSelect`. Source: lines 258-299 of `js/src/ext/psselect.c`. -/
def updateLoop (duration : Timespec) : ℕ → Option ℕ → SelectHeap → Option SelectHeap
  | _, none, h => some h
  | 0, some _, _ => none
  | n + 1, some ev, h =>
      updateLoop duration n ((h.elapse duration ev).mem ev).next (h.elapse duration ev)

/-- The timeout stored in the event at an address. -/
def timeoutOf (h : SelectHeap) (ev : ℕ) : Timespec := (h.mem ev).data.2.timeout

variable {h h' : SelectHeap} {d : Timespec} {n ev a fd : ℕ} {l : List ℕ} {p : Option ℕ}

/-- Updating a timeout leaves the links. -/
theorem elapse_next : ((h.elapse d ev).mem a).next = (h.mem a).next := by
  by_cases ha : a = ev <;> simp [elapse, ha]

/-- Updating a timeout leaves the other events. -/
theorem elapse_mem_ne (ha : a ≠ ev) : (h.elapse d ev).mem a = h.mem a :=
  Function.update_of_ne ha _ _

/-- **The loop subtracts the duration once from each event it meets**, and touches
nothing else: what is behind an event was not updated yet. -/
theorem updateLoop_spec (hw : walk h.mem n p = some l) :
    ∃ h', updateLoop d n p h = some h' ∧ h'.allocated = h.allocated ∧ h'.psEvents = h.psEvents ∧
      (∀ a, (h'.mem a).next = (h.mem a).next ∧ (h'.mem a).prev = (h.mem a).prev) ∧
      (∀ a ∈ l, (h'.mem a).data = ⟨(h.mem a).data.1, (h.mem a).data.2.elapse d⟩) ∧
      ∀ a ∉ l, h'.mem a = h.mem a := by
  induction n generalizing p h l with
  | zero =>
      cases p with
      | some ev => cases hw
      | none =>
          obtain rfl := Option.some.inj hw
          exact ⟨h, rfl, rfl, rfl, fun _ => ⟨rfl, rfl⟩, by simp, fun _ _ => rfl⟩
  | succ n ih =>
      cases p with
      | none =>
          obtain rfl := Option.some.inj hw
          exact ⟨h, rfl, rfl, rfl, fun _ => ⟨rfl, rfl⟩, by simp, fun _ _ => rfl⟩
      | some ev =>
          have hnd := walk_nodup hw
          obtain ⟨k, r, hk, rfl, hr⟩ := walk_some hw
          obtain rfl := Nat.succ.inj hk
          have hr' : walk (h.elapse d ev).mem n ((h.elapse d ev).mem ev).next = some r := by
            rw [elapse_next, walk_congr fun _ => elapse_next]
            exact hr
          obtain ⟨h', hloop, hal, hpe, hlink, hin, hout⟩ := ih hr'
          have hev : ev ∉ r := (List.nodup_cons.1 hnd).1
          refine ⟨h', hloop, hal, hpe, fun a => ?_, fun a ha => ?_, fun a ha => ?_⟩
          · obtain ⟨hnext, hprev⟩ := hlink a
            rw [hnext, hprev]
            by_cases hae : a = ev <;> simp [elapse, hae]
          · rcases List.mem_cons.1 ha with rfl | ha
            · rw [hout _ hev]
              simp [elapse]
            · rw [hin a ha, elapse_mem_ne (ne_of_mem_of_not_mem ha hev)]
          · rw [List.mem_cons, not_or] at ha
            rw [hout a ha.2, elapse_mem_ne ha.1]

/-- The loop returns exactly where the walk ends. -/
theorem walk_of_updateLoop (hr : updateLoop d n p h = some h') : ∃ l, walk h.mem n p = some l := by
  induction n generalizing p h with
  | zero =>
      cases p with
      | none => exact ⟨[], rfl⟩
      | some ev => cases hr
  | succ n ih =>
      cases p with
      | none => exact ⟨[], rfl⟩
      | some ev =>
          obtain ⟨l, hl⟩ := ih hr
          rw [elapse_next, walk_congr fun _ => elapse_next] at hl
          exact ⟨ev :: l, by rw [walk_succ, hl]; rfl⟩

/-- A pass takes the duration off an event that is linked. -/
theorem timeoutOf_updateLoop (hr : updateLoop d n h.psEvents h = some h')
    (hreg : h.Registered ev) : h'.timeoutOf ev = updateTimeout d (h.timeoutOf ev) := by
  obtain ⟨l, hl⟩ := walk_of_updateLoop hr
  obtain ⟨h'', hloop, -, -, -, hin, -⟩ := updateLoop_spec (d := d) hl
  obtain rfl : h' = h'' := Option.some.inj (hr.symm.trans hloop)
  unfold timeoutOf
  rw [hin ev (hreg.2.mem_walk hl)]
  rfl

/-- **On a list that represents a map the pass is that of the map.** -/
theorem Represents.updateLoop {m : Registry} (hm : h.Represents m) :
    ∃ n h', updateLoop d n h.psEvents h = some h' ∧ h'.Represents (m.updateTimeouts d) := by
  obtain ⟨l, hl, hmap, hal⟩ := hm
  obtain ⟨h', hloop, hall, hpe, hlink, hin, -⟩ := updateLoop_spec (d := d) hl.walk_eq
  have hchain : ∀ (r : List (ℕ × (Σ _ : ℤ, PSSelectEvent))) (p q : Option ℕ),
      (∀ c ∈ r, c.1 ∈ l.map Prod.fst) → Chain h.mem p q r →
      Chain h'.mem p q (r.map fun c => (c.1, ⟨c.2.1, c.2.2.elapse d⟩)) := by
    intro r
    induction r with
    | nil => exact fun _ _ _ hq => hq
    | cons c r ih =>
        rintro p q hr ⟨rfl, hdata, hprev, hrest⟩
        obtain ⟨hn, hp⟩ := hlink c.1
        refine ⟨rfl, ?_, by rw [hp, hprev], ?_⟩
        · rw [hin c.1 (hr c (by simp)), hdata]
        · rw [hn]
          exact ih _ _ (fun c' hc' => hr c' (by simp [hc'])) hrest
  refine ⟨l.length, h', hloop, l.map fun c => (c.1, ⟨c.2.1, c.2.2.elapse d⟩), ?_, ?_, ?_⟩
  · rw [hpe]
    exact hchain l none h.psEvents (fun c hc => List.mem_map_of_mem hc) hl
  · change _ = m.entries.map _
    rw [← hmap, List.map_map, List.map_map]
    rfl
  · rw [List.map_map, hall]
    exact hal

/-! ### Runs of calls and passes -/

end SelectHeap

/-- A call of `ps_AddSelect` or `ps_RemoveSelect`, or a pass with the readings of the
clock around its `select`. -/
inductive SelectStep
  | call (c : SelectCall)
  | pass (start stop : Timespec)
deriving DecidableEq

namespace SelectStep

/-- The step on the heap.  The clock is monotonic. -/
def Step (h : SelectHeap) : SelectStep → SelectHeap → Prop
  | call c, h' => c.Answered h ∧ ∃ fuel, c.exec fuel h = some h'
  | pass start stop, h' => Timespec.Monotonic start stop ∧
      ∃ fuel, SelectHeap.updateLoop (diffTimespec start stop) fuel h.psEvents h = some h'

/-- The clock readings of a pass. -/
def reading : SelectStep → Option (Timespec × Timespec)
  | call _ => none
  | pass start stop => some (start, stop)

/-- The clock readings of the passes among the steps. -/
def readings (ls : List SelectStep) : List (Timespec × Timespec) := ls.filterMap reading

end SelectStep

namespace SelectHeap

variable {h h' : SelectHeap} {c : SelectCall} {s : SelectStep} {ls : List SelectStep}
  {n ev : ℕ} {fd : ℤ} {p : Option ℕ}

/-- A removal leaves what the cells hold. -/
theorem removeLoop_data (hr : removeLoop fd n p h = some h') (a : ℕ) :
    (h'.mem a).data = (h.mem a).data := by
  induction n generalizing p h with
  | zero => cases p <;> simp_all [removeLoop]
  | succ n ih =>
      cases p with
      | none => simp_all [removeLoop]
      | some b =>
          rw [removeLoop_succ] at hr
          rw [ih hr, round_data]

/-- Linking an event leaves what the cells hold. -/
theorem link_data (h : SelectHeap) (a b : ℕ) : ((h.link a).mem b).data = (h.mem b).data := by
  unfold link
  split
  · rw [setPrev_data]
    by_cases hb : b = a <;> simp [setNext, hb]
  · rfl

/-- What a call of `ps_AddSelect` with a new event stores. -/
theorem psAddSelect_data {mask : PSFDSet} {obj : ObjId} {func errfunc : PSSelectCallback}
    {timeout : ℤ} (hr : h.psAddSelect n fd mask obj func errfunc timeout (some ev) = some h')
    (a : ℕ) : (h'.mem a).data =
      if a = ev then ⟨fd, mask, obj, func, errfunc, addTimeout timeout⟩ else (h.mem a).data := by
  unfold psAddSelect at hr
  dsimp only at hr
  split at hr
  · cases hr
  · rename_i q hq
    obtain rfl := Option.some.inj hr
    rw [link_data, removeLoop_data hq]
    by_cases ha : a = ev <;> simp [malloc, ha]

/-- **A call leaves the events it was not told about**: the address `JS_malloc`
hands out was not allocated. -/
theorem exec_data (hans : c.Answered h) (hev : h.allocated ev = true)
    (hr : c.exec n h = some h') : (h'.mem ev).data = (h.mem ev).data := by
  cases c with
  | removeSelect fd => exact removeLoop_data hr ev
  | addSelect fd mask obj func errfunc timeout event =>
      cases event with
      | none =>
          obtain rfl := Option.some.inj hr
          rfl
      | some b =>
          have hne : ev ≠ b := by
            rintro rfl
            have hfree : h.allocated ev = false := hans
            rw [hev] at hfree
            cases hfree
          rw [psAddSelect_data hr, if_neg hne]

/-- **One step:** a registered event loses the duration of the step, if it is a pass. -/
theorem timeoutOf_step (hst : s.Step h h') (hreg : h.Registered ev) :
    h'.timeoutOf ev = elapsed (h.timeoutOf ev) s.reading.toList := by
  cases s with
  | call c =>
      obtain ⟨hans, fuel, hr⟩ := hst
      show (h'.mem ev).data.2.timeout = _
      rw [exec_data hans hreg.1 hr]
      rfl
  | pass start stop =>
      obtain ⟨-, fuel, hr⟩ := hst
      exact timeoutOf_updateLoop hr hreg

/-- **A run:** the passes one after the other. -/
theorem timeoutOf_run
    (hrun : Run (Keeping (fun h => h.Registered ev) SelectStep.Step) h ls h')
    (hreg : h.Registered ev) :
    h'.timeoutOf ev = elapsed (h.timeoutOf ev) (SelectStep.readings ls) := by
  induction hrun with
  | nil => rfl
  | cons hst _ ih =>
      rename_i s _ _
      rw [ih hst.2, timeoutOf_step hst.1 hreg]
      cases s <;> rfl

/-- The clock is monotonic in every pass of a run. -/
theorem monotonic_readings {P : SelectHeap → Prop} {r : Timespec × Timespec}
    (hrun : Run (Keeping P SelectStep.Step) h ls h') (hr : r ∈ SelectStep.readings ls) :
    Timespec.Monotonic r.1 r.2 := by
  induction hrun with
  | nil => cases hr
  | cons hst _ ih =>
      rename_i s _ _
      cases s with
      | call c => exact ih hr
      | pass start stop =>
          rcases List.mem_cons.1 hr with rfl | hr
          · exact hst.1.1
          · exact ih hr

end SelectHeap

/-- **Saturating at each pass is saturating once at the end.** -/
theorem elapsed_ns {t : Timespec} {rs : List (Timespec × Timespec)} (ht : t.Normalised)
    (hclock : ∀ r ∈ rs, Timespec.Monotonic r.1 r.2) :
    (elapsed t rs).Normalised ∧
      (elapsed t rs).ns = max 0 (t.ns - (rs.map fun r => (diffTimespec r.1 r.2).ns).sum) := by
  induction rs generalizing t with
  | nil =>
      refine ⟨ht, ?_⟩
      obtain ⟨hs, hn, -⟩ := ht
      simp only [elapsed, List.foldl_nil, List.map_nil, List.sum_nil]
      unfold Timespec.ns NS_PER_SEC
      omega
  | cons r rs ih =>
      have hd := (hclock r (by simp)).diff.1
      obtain ⟨hnorm, hns⟩ := ht.update hd
      obtain ⟨hfinal, hsum⟩ := ih hnorm fun r' hr' => hclock r' (by simp [hr'])
      refine ⟨hfinal, ?_⟩
      have hnn : 0 ≤ (rs.map fun r => (diffTimespec r.1 r.2).ns).sum := by
        refine List.sum_nonneg fun x hx => ?_
        obtain ⟨r', hr', rfl⟩ := List.mem_map.1 hx
        obtain ⟨hs, hn, -⟩ := (hclock r' (by simp [hr'])).diff.1
        unfold Timespec.ns NS_PER_SEC
        omega
      change (elapsed (updateTimeout _ t) rs).ns = _
      rw [hsum, hns, List.map_cons, List.sum_cons]
      omega

/-- The sentinel stays through every pass. -/
theorem elapsed_setNoTimeout (rs : List (Timespec × Timespec)) :
    elapsed setNoTimeout rs = setNoTimeout := by
  induction rs with
  | nil => rfl
  | cons r rs ih => exact ih

namespace SelectHeap

/-- **Timeout accounting.**  An event registered with `t` milliseconds, through any calls
and passes it stays registered over: for `t ≥ 0` its timeout is normalised, never the
sentinel, and what is left of `t` after the durations of the passes; for `t = -1` it is
the sentinel; and for every `int` the machine words hold the same, if the durations leave
room where `t` is a second or more below zero.  Source: `diff_timespec` and
`update_timeout` (lines 79-132), `ps_HandleSelect` (lines 246-260) and `ps_AddSelect`
(lines 359-366) of `js/src/ext/psselect.c`. -/
theorem timeout_accounting (t : ℤ) (hlo : -(2 ^ 31) ≤ t) (hhi : t < 2 ^ 31) (fd : ℤ)
    (mask : PSFDSet) (obj : ObjId) (func errfunc : PSSelectCallback) (ev : ℕ)
    (ls : List SelectStep) (h h' : SelectHeap)
    (hrun : Run (Keeping (fun h => h.Registered ev) SelectStep.Step) h
      (.call (.addSelect fd mask obj func errfunc t (some ev)) :: ls) h') :
    (0 ≤ t → (h'.timeoutOf ev).Normalised ∧ noTimeout (h'.timeoutOf ev) = false ∧
      (h'.timeoutOf ev).ns = max 0 (t * 1000000 -
        ((SelectStep.readings ls).map fun r => (diffTimespec r.1 r.2).ns).sum)) ∧
    (t = -1 → h'.timeoutOf ev = setNoTimeout) ∧
    ((∀ r ∈ SelectStep.readings ls, Roomy t r) →
      storedTimeout? t (SelectStep.readings ls) = some (h'.timeoutOf ev)) := by
  rcases hrun with _ | @⟨_, h₁, _, _, _, ⟨⟨-, fuel, hadd⟩, hreg⟩, hrun⟩
  have hstart : h₁.timeoutOf ev = addTimeout t := by
    show (h₁.mem ev).data.2.timeout = _
    rw [psAddSelect_data hadd, if_pos rfl]
  have hclock := fun r => monotonic_readings (r := r) hrun
  have hfinal := timeoutOf_run hrun hreg
  rw [hstart] at hfinal
  refine ⟨fun hnn => ?_, fun hsent => ?_, fun hroom => ?_⟩
  · obtain ⟨hnorm, hns⟩ := Timespec.addTimeout_of_nonneg hnn
    obtain ⟨hnorm', hns'⟩ := elapsed_ns hnorm hclock
    rw [hfinal]
    exact ⟨hnorm', hnorm'.noTimeout, by rw [hns', hns]⟩
  · rw [hfinal, hsent]
    exact elapsed_setNoTimeout _
  · rw [hfinal]
    exact storedTimeout?_eq hlo hhi hclock hroom

/-- The registration of descriptor 3 in the empty list, as event 0. -/
def firstAdd (t : ℤ) : SelectStep :=
  .call (.addSelect 3 PSFDSET_WRITE 0 .tcpSocketSelectCallback .tcpSocketSelectErrorCallback t
    (some 0))

/-- The registration of descriptor 3 and passes with the given readings. -/
theorem run_firstAdd (t : ℤ) (start stop : Timespec) (hclock : Timespec.Monotonic start stop) :
    ∃ h, Run (Keeping (fun h => h.Registered 0) SelectStep.Step) SelectHeap.start
      [firstAdd t, .pass start stop] h :=
  ⟨_, .cons ⟨⟨rfl, 1, rfl⟩, rfl, .here 0⟩ (.cons ⟨⟨hclock, 1, rfl⟩, rfl, .here 0⟩ (.nil _))⟩

/-- 5000 milliseconds, and a pass of 1.25 seconds that borrows from the seconds. -/
theorem timeout_accounting_borrow : ∃ h : SelectHeap,
    h.timeoutOf 0 = ⟨3, 750000000⟩ ∧
      (h.timeoutOf 0).ns = max 0 (5000 * 1000000 - 1250000000) := by
  obtain ⟨h, hrun⟩ := run_firstAdd 5000 ⟨7, 800000000⟩ ⟨9, 50000000⟩
    (by decide)
  obtain ⟨hpos, -, hwords⟩ := timeout_accounting 5000 (by decide) (by decide) _ _ _ _ _ _ _ _ _ hrun
  have hstored := hwords (by decide)
  exact ⟨h, (Option.some.inj (hstored.symm.trans (by decide))), (hpos (by decide)).2.2⟩

/-- **A timeout of minus one second has no room for every duration**: registered with
`-1000` milliseconds, a pass of `2^63 - 1` seconds and a nanosecond overflows where the
borrow is taken off the seconds. -/
theorem timeout_overflow :
    ∃ h, Run (Keeping (fun h => h.Registered 0) SelectStep.Step) SelectHeap.start
        [firstAdd (-1000), .pass ⟨0, 0⟩ ⟨2 ^ 63 - 1, 1⟩] h ∧
      storedTimeout? (-1000) [(⟨0, 0⟩, ⟨2 ^ 63 - 1, 1⟩)] = none := by
  obtain ⟨h, hrun⟩ := run_firstAdd (-1000) ⟨0, 0⟩ ⟨2 ^ 63 - 1, 1⟩ (by decide)
  exact ⟨h, hrun, by decide⟩

end SelectHeap
end ProntoScript
