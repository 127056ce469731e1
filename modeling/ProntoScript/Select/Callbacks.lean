/-
# Which callbacks a pass calls

Three laws of the dispatch in `ps_HandleSelect` (`js/src/ext/psselect.c`, lines
252-317), each with the exact condition under which it holds.  The copies are called
in turn, the oldest event first, but an event that an earlier callback removed is
called all the same (`dispatch_iff`).  `errfunc` is called where `select` itself
failed, for every event, and never for the exception set of a `select` that succeeded
(`errors_iff`).  The events that timed out are called only where no descriptor is
ready (`deadlines_iff`).
-/

import ProntoScript.Select.Dispatch

namespace ProntoScript

/-- One of the first `k` calls of the pass removes the event of the descriptor, alone or
to make room for a new one. -/
def RemovedBefore (does : ℕ → List RegistryChange) (k : ℕ) (fd : ℤ) : Prop :=
  ∃ i < k, ∃ c ∈ does i, c.removes = some fd

instance (does : ℕ → List RegistryChange) (k : ℕ) (fd : ℤ) : Decidable (RemovedBefore does k fd) :=
  inferInstanceAs (Decidable (∃ i < k, ∃ c ∈ does i, c.removes = some fd))

/-- From the `k`-th call of the pass on, every event that is due is called in turn and
once, unless an earlier call removed it; nothing else is called. -/
inductive CallsInTurn (does : ℕ → List RegistryChange) : ℕ → List EventCopy → List EventCopy → Prop
  | nil (k : ℕ) : CallsInTurn does k [] []
  | call {k : ℕ} {due calls : List EventCopy} (c : EventCopy) :
      CallsInTurn does (k + 1) due calls → CallsInTurn does k (c :: due) (c :: calls)
  | removed {k : ℕ} {due calls : List EventCopy} (c : EventCopy) :
      RemovedBefore does k c.fd → CallsInTurn does k due calls → CallsInTurn does k (c :: due) calls

/-- No event is called that an earlier call removed. -/
def NoneRemoved (does : ℕ → List RegistryChange) (calls : List EventCopy) : Prop :=
  ∀ k c, calls[k]? = some c → ¬RemovedBefore does k c.fd

/-- The events whose `func` a pass calls. -/
def PassTrace.funcs (t : PassTrace) : List EventCopy :=
  (t.calls.filter fun c => !c.errfunc).map PassCall.copy

/-- The events whose `errfunc` it calls. -/
def PassTrace.errfuncs (t : PassTrace) : List EventCopy :=
  (t.calls.filter fun c => c.errfunc).map PassCall.copy

/-- The events that are ready for what they asked for, the oldest first. -/
def readyEvents (reg : Registry) (r : SelectResult) : List EventCopy :=
  (reg.updateTimeouts r.duration).oldestFirst fun fd _ => decide (fd ∈ r.rdfs ∨ fd ∈ r.wrfs)

/-- The events that have no time left after the pass, the oldest first. -/
def expiredEvents (reg : Registry) (r : SelectResult) : List EventCopy :=
  (reg.updateTimeouts r.duration).oldestFirst fun _ ev => ev.expired

/-- All events, the oldest first. -/
def allEvents (reg : Registry) (r : SelectResult) : List EventCopy :=
  (reg.updateTimeouts r.duration).oldestFirst fun _ _ => true

section

variable {reg : Registry} {r : SelectResult} {stray : Timeval} {does : ℕ → List RegistryChange}
  {t : PassTrace} {fd : ℤ} {l : List EventCopy} {k : ℕ}

/-- Calling everything that is due is calling it in turn. -/
theorem callsInTurn_self : CallsInTurn does k l l := by
  induction l generalizing k with
  | nil => exact .nil k
  | cons c l ih => exact .call c ih

/-- **The calls of a pass, by the result of `select`.** -/
theorem pass_calls (h : psHandleSelectPass stray reg r does = some t) :
    (0 < r.result → t.calls = (readyEvents reg r).map (⟨·, false⟩)) ∧
    (r.result = 0 → t.calls = (expiredEvents reg r).map (⟨·, false⟩)) ∧
    (r.result < 0 → t.calls =
      ((reg.updateTimeouts r.duration).oldestFirst fun fd _ => r.errs fd).map (⟨·, true⟩)) := by
  obtain ⟨-, hcalls⟩ := psHandleSelectPass_calls h
  rw [copyLists_eq, pickCalls] at hcalls
  dsimp only at hcalls
  refine ⟨fun hpos => ?_, fun hzero => ?_, fun hneg => ?_⟩
  · rw [hcalls, if_pos hpos]
    simp only [readyEvents, Bool.decide_or]
    rfl
  · rw [hcalls, if_neg (by omega), if_pos hzero]
    rfl
  · rw [hcalls, if_neg (by omega), if_neg (by omega)]

/-- Calls of `func` are no calls of `errfunc`. -/
theorem funcs_of_calls (h : t.calls = l.map (⟨·, false⟩)) : t.funcs = l ∧ t.errfuncs = [] := by
  unfold PassTrace.funcs PassTrace.errfuncs
  rw [h, List.filter_map, List.filter_map]
  simp [Function.comp_def]

/-- Calls of `errfunc` are no calls of `func`. -/
theorem errfuncs_of_calls (h : t.calls = l.map (⟨·, true⟩)) : t.funcs = [] ∧ t.errfuncs = l := by
  unfold PassTrace.funcs PassTrace.errfuncs
  rw [h, List.filter_map, List.filter_map]
  simp [Function.comp_def]

end

/-! ### In turn, unless removed -/

/-- `select` is asked for the registered interests; where a descriptor is ready the ready
events are called in turn, where none is exactly the expired events that were not
removed are; and no other event is called. -/
structure DispatchesInTurn (reg : Registry) (r : SelectResult) (does : ℕ → List RegistryChange)
    (t : PassTrace) : Prop where
  asksRead : ∀ fd, fd ∈ t.request.rdfs ↔
    ∃ ev, ⟨fd, ev⟩ ∈ reg.entries ∧ ev.wants PSFDSET_READ = true
  asksWrite : ∀ fd, fd ∈ t.request.wrfs ↔
    ∃ ev, ⟨fd, ev⟩ ∈ reg.entries ∧ ev.wants PSFDSET_WRITE = true
  asksErrors : ∀ fd, fd ∈ t.request.erfs ↔ ∃ ev, ⟨fd, ev⟩ ∈ reg.entries
  nfds : ∀ e ∈ reg.entries, e.1 < t.request.nfds
  ready : 0 < r.result → CallsInTurn does 0 (readyEvents reg r) t.funcs
  expired : r.result = 0 →
    CallsInTurn does 0 (expiredEvents reg r) t.funcs ∧ NoneRemoved does t.funcs
  only : ∀ c ∈ t.funcs, c ∈ readyEvents reg r ∨ c ∈ expiredEvents reg r

/-- **Dispatch of one pass.**  Its law holds exactly where, if no descriptor is ready, no
callback removes an expired event whose turn comes later.  Where one is ready it holds in
any case; that no event is called there that was removed before is, again, that no
callback removes a ready event whose turn comes later.  Source: `ps_HandleSelect`, the
request (lines 204-250) and the copies and calls (lines 252-317) of
`js/src/ext/psselect.c`. -/
theorem dispatch_iff (stray : Timeval) (reg : Registry) (r : SelectResult)
    (does : ℕ → List RegistryChange) (t : PassTrace)
    (h : psHandleSelectPass stray reg r does = some t) :
    (DispatchesInTurn reg r does t ↔
      (r.result = 0 → NoneRemoved does (expiredEvents reg r))) ∧
    (0 < r.result → (NoneRemoved does t.funcs ↔ NoneRemoved does (readyEvents reg r))) := by
  obtain ⟨hpos, hzero, hneg⟩ := pass_calls h
  constructor
  · constructor
    · intro hlaw hr
      have hnone := (hlaw.expired hr).2
      rwa [(funcs_of_calls (hzero hr)).1] at hnone
    · intro hcond
      obtain ⟨hrequest, -⟩ := psHandleSelectPass_calls h
      obtain ⟨hread, hwrite, herrors, hnfds⟩ := selectRequest_sets stray reg
      rw [← hrequest] at hread hwrite herrors hnfds
      refine ⟨hread, hwrite, herrors, hnfds, fun hr => ?_, fun hr => ?_, fun c hc => ?_⟩
      · rw [(funcs_of_calls (hpos hr)).1]
        exact callsInTurn_self
      · rw [(funcs_of_calls (hzero hr)).1]
        exact ⟨callsInTurn_self, hcond hr⟩
      · rcases lt_trichotomy r.result 0 with hr | hr | hr
        · rw [(errfuncs_of_calls (hneg hr)).1] at hc
          cases hc
        · rw [(funcs_of_calls (hzero hr)).1] at hc
          exact .inr hc
        · rw [(funcs_of_calls (hpos hr)).1] at hc
          exact .inl hc
  · intro hr
    rw [(funcs_of_calls (hpos hr)).1]

/-- Two connection attempts with a second left each; descriptor 3 was registered first. -/
def connectingPair : Registry :=
  AList.insert 4 ⟨PSFDSET_WRITE, 1, .tcpSocketSelectCallback, .tcpSocketSelectErrorCallback,
    addTimeout 1000⟩ (onlyEvent 1000)

/-- The callback of the second attempt removes the first, which was called already. -/
theorem dispatch_in_turn : ∃ t,
    psHandleSelectPass ⟨0, 0⟩ connectingPair ⟨0, [], [], [], ⟨0, 0⟩, ⟨1, 0⟩⟩
      (fun k => if k = 1 then [.call (.removeSelect 3)] else []) = some t ∧
    DispatchesInTurn connectingPair ⟨0, [], [], [], ⟨0, 0⟩, ⟨1, 0⟩⟩
      (fun k => if k = 1 then [.call (.removeSelect 3)] else []) t := by
  refine ⟨_, rfl, (dispatch_iff ⟨0, 0⟩ _ _ _ _ rfl).1.2 fun _ k c hc hrem => ?_⟩
  obtain ⟨i, hi, change, hchange, -⟩ := hrem
  dsimp only at hchange
  split_ifs at hchange with hone
  · have hlen : (expiredEvents connectingPair
        ⟨0, [], [], [], ⟨0, 0⟩, ⟨1, 0⟩⟩).length = 2 := by decide
    have hk := (List.getElem?_eq_some_iff.1 hc).1
    omega
  · cases hchange

/-- **An event is called that an earlier callback removed**: both attempts run out of
time, and the callback of the first removes the second. -/
theorem dispatch_of_removed : ¬∀ stray reg r does t,
    psHandleSelectPass stray reg r does = some t → DispatchesInTurn reg r does t := by
  intro hclaim
  have hlaw := hclaim ⟨0, 0⟩ connectingPair ⟨0, [], [], [], ⟨0, 0⟩, ⟨1, 0⟩⟩
    (fun k => if k = 0 then [.call (.removeSelect 4)] else []) _ rfl
  refine (hlaw.expired rfl).2 1 ⟨4, 1, .tcpSocketSelectCallback, .tcpSocketSelectErrorCallback,
    ⟨0, 0⟩⟩ (by decide) ?_
  exact ⟨0, by decide, _, List.mem_cons_self .., rfl⟩

/-! ### Errors -/

section

variable {reg : Registry} {r : SelectResult} {stray : Timeval} {does : ℕ → List RegistryChange}
  {t : PassTrace} {fd : ℤ}

/-- A copy of a registered event that passes a test on descriptors. -/
theorem exists_oldestFirst {d : Timespec} {test : ℤ → Bool} :
    (∃ c ∈ (reg.updateTimeouts d).oldestFirst fun fd _ => test fd, c.fd = fd) ↔
      (∃ ev, ⟨fd, ev⟩ ∈ reg.entries) ∧ test fd = true := by
  constructor
  · rintro ⟨c, hc, rfl⟩
    obtain ⟨fd, ev, he, htest, rfl⟩ := mem_oldestFirst.1 hc
    obtain ⟨ev', he', -⟩ := mem_updateTimeouts.1 he
    exact ⟨⟨ev', he'⟩, htest⟩
  · rintro ⟨⟨ev, he⟩, htest⟩
    exact ⟨_, mem_oldestFirst.2 ⟨fd, _, mem_updateTimeouts.2 ⟨ev, he, rfl⟩, htest, rfl⟩, rfl⟩

/-- Where `select` fails and leaves the sets, the bit of every event is set. -/
theorem errs_of_failed (hsets : r.erfs = (selectRequest stray reg).erfs) {ev : PSSelectEvent}
    (he : ⟨fd, ev⟩ ∈ reg.entries) : r.errs fd = true := by
  rw [SelectResult.errs, hsets, decide_eq_true_iff]
  exact ((selectRequest_sets stray reg).2.2.1 fd).2 ⟨ev, he⟩

/-- So every event is copied to the list of errors. -/
theorem errored_of_failed (hsets : r.erfs = (selectRequest stray reg).erfs) :
    (reg.updateTimeouts r.duration).oldestFirst (fun fd _ => r.errs fd) = allEvents reg r := by
  unfold allEvents Registry.oldestFirst
  congr 2
  refine List.filter_congr fun e he => ?_
  obtain ⟨ev', he', -⟩ := mem_updateTimeouts.1 he
  exact errs_of_failed hsets he'

/-- The events are the registered ones. -/
theorem exists_allEvents :
    (∃ c ∈ allEvents reg r, c.fd = fd) ↔ ∃ ev, ⟨fd, ev⟩ ∈ reg.entries :=
  exists_oldestFirst.trans (and_iff_left rfl)

/-- The ready ones are those in one of the two sets. -/
theorem exists_readyEvents : (∃ c ∈ readyEvents reg r, c.fd = fd) ↔
    (∃ ev, ⟨fd, ev⟩ ∈ reg.entries) ∧ (fd ∈ r.rdfs ∨ fd ∈ r.wrfs) :=
  exists_oldestFirst.trans (and_congr_right fun _ => decide_eq_true_iff)

/-- An event that has no time left is registered. -/
theorem registered_of_expired {c : EventCopy} (hc : c ∈ expiredEvents reg r) :
    ∃ ev, ⟨c.fd, ev⟩ ∈ reg.entries := by
  obtain ⟨fd, ev, he, -, rfl⟩ := mem_oldestFirst.1 hc
  obtain ⟨ev', he', -⟩ := mem_updateTimeouts.1 he
  exact ⟨ev', he'⟩

end

/-- `errfunc` is called for the registered events at fault: those in the exception set
where `select` succeeds, those with a faulty descriptor where it fails. -/
def ErrorsAtFault (reg : Registry) (r : SelectResult) (faulty : ℤ → Bool) (t : PassTrace) : Prop :=
  ∀ fd, (∃ c ∈ t.errfuncs, c.fd = fd) ↔
    (∃ ev, ⟨fd, ev⟩ ∈ reg.entries) ∧ if r.result < 0 then faulty fd = true else fd ∈ r.erfs

/-- **Errors are told to those at fault exactly where there is nobody to tell, or nobody
else to be told**: `select` succeeds with no event in the exception set, or it fails and
every event is at fault.  The copies of the exception set are called only where `select`
failed, and then the sets are as they were passed.  Source: `ps_HandleSelect`
(lines 246-317 of `js/src/ext/psselect.c`), with the error callbacks of
`js/src/ext/pstcpsocket.c` (lines 378-399) and `js/src/ext/psudpsocket.c` (lines 280-301).
-/
theorem errors_iff (stray : Timeval) (reg : Registry) (r : SelectResult)
    (does : ℕ → List RegistryChange) (faulty : ℤ → Bool) (t : PassTrace)
    (h : psHandleSelectPass stray reg r does = some t)
    (hposix : r.result < 0 → r.erfs = (selectRequest stray reg).erfs) :
    ErrorsAtFault reg r faulty t ↔
      ∀ fd ev, ⟨fd, ev⟩ ∈ reg.entries → if r.result < 0 then faulty fd = true else fd ∉ r.erfs := by
  obtain ⟨hpos, hzero, hneg⟩ := pass_calls h
  unfold ErrorsAtFault
  by_cases hr : r.result < 0
  · have hcalls := hneg hr
    rw [errored_of_failed (hposix hr)] at hcalls
    simp only [if_pos hr, (errfuncs_of_calls hcalls).2, exists_allEvents]
    constructor
    · exact fun hlaw fd ev he => ((hlaw fd).1 ⟨ev, he⟩).2
    · exact fun hall fd => ⟨fun ⟨ev, he⟩ => ⟨⟨ev, he⟩, hall fd ev he⟩, And.left⟩
  · have hnone : t.errfuncs = [] := by
      rcases lt_trichotomy r.result 0 with h' | h' | h'
      · exact absurd h' hr
      · exact (funcs_of_calls (hzero h')).2
      · exact (funcs_of_calls (hpos h')).2
    simp only [if_neg hr, hnone]
    constructor
    · intro hlaw fd ev he hmem
      obtain ⟨c, hc, -⟩ := (hlaw fd).2 ⟨⟨ev, he⟩, hmem⟩
      cases hc
    · intro hall fd
      constructor
      · rintro ⟨c, hc, -⟩
        cases hc
      · rintro ⟨⟨ev, he⟩, hmem⟩
        exact absurd hmem (hall fd ev he)

/-- `select` fails because of the only descriptor. -/
theorem errors_of_the_only_one : ∃ t,
    psHandleSelectPass ⟨0, 0⟩ (onlyEvent 5000) ⟨-1, [], [3], [3], ⟨0, 0⟩, ⟨0, 0⟩⟩ (fun _ => []) =
      some t ∧
    ErrorsAtFault (onlyEvent 5000) ⟨-1, [], [3], [3], ⟨0, 0⟩, ⟨0, 0⟩⟩ (fun fd => fd == 3) t := by
  refine ⟨_, rfl, (errors_iff ⟨0, 0⟩ _ _ _ _ _ rfl fun _ => by decide).2 fun fd ev he => ?_⟩
  cases List.mem_singleton.1 he
  decide

/-- **A signal is told to every socket as an error**: `select` is interrupted, and no
descriptor is at fault. -/
theorem errors_of_a_signal : ¬∀ stray reg r does faulty t,
    psHandleSelectPass stray reg r does = some t →
    (r.result < 0 → r.erfs = (selectRequest stray reg).erfs) → ErrorsAtFault reg r faulty t := by
  intro hclaim
  have hlaw := hclaim ⟨0, 0⟩ (onlyEvent 5000) ⟨-1, [], [3], [3], ⟨0, 0⟩, ⟨0, 0⟩⟩ (fun _ => [])
    (fun _ => false) _ rfl (fun _ => by decide)
  have hfault := ((hlaw 3).1 ⟨⟨3, 0, .tcpSocketSelectCallback, .tcpSocketSelectErrorCallback,
    ⟨5, 0⟩⟩, by decide, rfl⟩).2
  revert hfault
  decide

/-! ### Deadlines -/

/-- Every event without time left is among the called ones, unless a call of the pass
removed it. -/
def DeadlinesMet (reg : Registry) (r : SelectResult) (does : ℕ → List RegistryChange)
    (t : PassTrace) (called : List EventCopy) : Prop :=
  ∀ c ∈ expiredEvents reg r, (∃ c' ∈ called, c'.fd = c.fd) ∨ RemovedBefore does t.calls.length c.fd

/-- **Deadlines are met exactly where no other descriptor is ready**, or every expired
event is ready too or removed by the callbacks of those that are.  A `select` that fails
has the `errfunc` of every event called instead of its `func`.  Source: `ps_HandleSelect`
(lines 252-317) and `update_timeout` (lines 111-132) of `js/src/ext/psselect.c`. -/
theorem deadlines_iff (stray : Timeval) (reg : Registry) (r : SelectResult)
    (does : ℕ → List RegistryChange) (t : PassTrace)
    (h : psHandleSelectPass stray reg r does = some t)
    (hposix : r.result < 0 → r.erfs = (selectRequest stray reg).erfs) :
    (DeadlinesMet reg r does t (t.funcs ++ t.errfuncs) ↔
      (0 < r.result → ∀ c ∈ expiredEvents reg r, c.fd ∈ r.rdfs ∨ c.fd ∈ r.wrfs ∨
        RemovedBefore does (readyEvents reg r).length c.fd)) ∧
    (DeadlinesMet reg r does t t.funcs ↔
      (0 < r.result → ∀ c ∈ expiredEvents reg r, c.fd ∈ r.rdfs ∨ c.fd ∈ r.wrfs ∨
        RemovedBefore does (readyEvents reg r).length c.fd) ∧
      (r.result < 0 → ∀ c ∈ expiredEvents reg r,
        RemovedBefore does (allEvents reg r).length c.fd)) := by
  obtain ⟨hpos, hzero, hneg⟩ := pass_calls h
  unfold DeadlinesMet
  rcases lt_trichotomy r.result 0 with hr | hr | hr
  · -- every event is copied to the list of errors, and called
    have hcalls := hneg hr
    rw [errored_of_failed (hposix hr)] at hcalls
    obtain ⟨hfuncs, herrs⟩ := errfuncs_of_calls hcalls
    have hall : ∀ c ∈ expiredEvents reg r, ∃ c' ∈ allEvents reg r, c'.fd = c.fd :=
      fun c hc => exists_allEvents.2 (registered_of_expired hc)
    rw [hfuncs, herrs, hcalls, List.nil_append, List.length_map]
    refine ⟨⟨fun _ hr' => by omega, fun _ c hc => .inl (hall c hc)⟩, ?_⟩
    constructor
    · intro hmet
      refine ⟨fun hr' => by omega, fun _ c hc => ?_⟩
      rcases hmet c hc with ⟨c', hc', -⟩ | hrem
      · cases hc'
      · exact hrem
    · exact fun hcond c hc => .inr (hcond.2 hr c hc)
  · obtain ⟨hfuncs, herrs⟩ := funcs_of_calls (hzero hr)
    rw [hfuncs, herrs, List.append_nil]
    have hmet : ∀ c ∈ expiredEvents reg r, (∃ c' ∈ expiredEvents reg r, c'.fd = c.fd) ∨
        RemovedBefore does t.calls.length c.fd := fun c hc => .inl ⟨c, hc, rfl⟩
    exact ⟨⟨fun _ hr' => by omega, fun _ => hmet⟩,
      ⟨fun _ => ⟨fun hr' => by omega, fun hr' => by omega⟩, fun _ => hmet⟩⟩
  · obtain ⟨hfuncs, herrs⟩ := funcs_of_calls (hpos hr)
    have hready : ∀ c ∈ expiredEvents reg r,
        (∃ c' ∈ readyEvents reg r, c'.fd = c.fd) ↔ c.fd ∈ r.rdfs ∨ c.fd ∈ r.wrfs :=
      fun c hc => exists_readyEvents.trans (and_iff_right (registered_of_expired hc))
    have hiff : (∀ c ∈ expiredEvents reg r, (∃ c' ∈ readyEvents reg r, c'.fd = c.fd) ∨
          RemovedBefore does (readyEvents reg r).length c.fd) ↔
        (0 < r.result → ∀ c ∈ expiredEvents reg r, c.fd ∈ r.rdfs ∨ c.fd ∈ r.wrfs ∨
          RemovedBefore does (readyEvents reg r).length c.fd) := by
      constructor
      · intro hmet _ c hc
        rw [← or_assoc, ← hready c hc]
        exact hmet c hc
      · intro hcond c hc
        rw [hready c hc, or_assoc]
        exact hcond hr c hc
    rw [hfuncs, herrs, hpos hr, List.append_nil, List.length_map]
    exact ⟨hiff, hiff.trans ⟨fun hcond => ⟨hcond, fun hr' => by omega⟩, fun hcond => hcond.1⟩⟩

/-- Both attempts run out of time, and no descriptor is ready. -/
theorem deadlines_of_a_pair : ∃ t,
    psHandleSelectPass ⟨0, 0⟩ connectingPair ⟨0, [], [], [], ⟨0, 0⟩, ⟨1, 0⟩⟩ (fun _ => []) = some t ∧
    DeadlinesMet connectingPair ⟨0, [], [], [], ⟨0, 0⟩, ⟨1, 0⟩⟩ (fun _ => []) t t.funcs := by
  refine ⟨_, rfl, (deadlines_iff ⟨0, 0⟩ _ _ _ _ rfl fun hr => ?_).2.2
    ⟨fun hr => ?_, fun hr => ?_⟩⟩
  · exact absurd hr (by decide)
  · exact absurd hr (by decide)
  · exact absurd hr (by decide)

/-- **An expired attempt is postponed by another socket**: both run out of time, and the
second is ready for writing. -/
theorem deadline_postponed : ¬∀ stray reg r does t, psHandleSelectPass stray reg r does = some t →
    (r.result < 0 → r.erfs = (selectRequest stray reg).erfs) →
    DeadlinesMet reg r does t (t.funcs ++ t.errfuncs) := by
  intro hclaim
  have hlaw := hclaim ⟨0, 0⟩ connectingPair ⟨1, [], [4], [], ⟨0, 0⟩, ⟨1, 0⟩⟩ (fun _ => []) _ rfl
    (fun hr => absurd hr (by decide))
  rcases hlaw ⟨3, 0, .tcpSocketSelectCallback, .tcpSocketSelectErrorCallback, ⟨0, 0⟩⟩ (by decide)
    with hcalled | ⟨i, -, c, hc, -⟩
  · revert hcalled
    decide
  · cases hc

end ProntoScript
