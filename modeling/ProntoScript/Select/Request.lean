/-
# What `ps_HandleSelect` asks `select` for

`js/src/ext/psselect.c`, lines 134-158 and 191-248: one traversal of the events fills
the three descriptor sets and finds the largest descriptor and the smallest timeout.
The minimum is right in whatever order the events are listed
(`Registry.smallest_timeout`), and the loop's use of the uninitialised `tv` does not
matter, for `tv` is overwritten behind the loop.  The conversion to a `timeval`
multiplies nanoseconds by 1000 where it has to divide by it, so the timeout of
`select` is right for whole seconds only (`timeval_iff`).

A stored timeout is the sentinel, normalised, or, between the registration with a
negative number of milliseconds and the next pass, not positive in both fields
(`Timespec.Coherent`).
-/

import ProntoScript.Select.Clock

namespace ProntoScript

open Transition (Run)

/-- `struct timeval`. -/
structure Timeval where
  tv_sec : ℤ
  tv_usec : ℤ
deriving DecidableEq, Repr

/-- `minimum_timeout`. Source: lines 137-158 of `js/src/ext/psselect.c`. -/
def minimumTimeout (first second : Timespec) : Timespec :=
  if noTimeout first then second
  else if noTimeout second then first
  else if first.tv_sec < second.tv_sec ∨
      first.tv_sec = second.tv_sec ∧ first.tv_nsec < second.tv_nsec then first
  else second

/-- The variables of `ps_HandleSelect` while it sets up the select. -/
structure SelectSetup where
  rdfs : List ℤ
  wrfs : List ℤ
  erfs : List ℤ
  max : ℤ
  timeout : Timespec
  tv : Timeval

/-- The body of the loop over the events. -/
def SelectSetup.add (s : SelectSetup) (fd : ℤ) (ev : PSSelectEvent) : SelectSetup where
  rdfs := if ev.wants PSFDSET_READ then fd :: s.rdfs else s.rdfs
  wrfs := if ev.wants PSFDSET_WRITE then fd :: s.wrfs else s.wrfs
  erfs := fd :: s.erfs
  max := if s.max < fd then fd else s.max
  timeout := minimumTimeout s.timeout ev.timeout
  tv :=
    if ev.timeout.tv_sec < s.tv.tv_sec ∨
        ev.timeout.tv_sec = s.tv.tv_sec ∧ ev.timeout.tv_nsec < s.tv.tv_usec * 1000 then
      ⟨ev.timeout.tv_sec, ev.timeout.tv_nsec * 1000⟩
    else s.tv

/-- The loop over the events, with what `tv` held before. Source: `ps_HandleSelect`,
lines 204-235 of `js/src/ext/psselect.c`. -/
def selectSetup (stray : Timeval) (events : List (Σ _ : ℤ, PSSelectEvent)) : SelectSetup :=
  events.foldl (fun s e => s.add e.1 e.2) ⟨[], [], [], 0, setNoTimeout, stray⟩

/-- The arguments of `select`; a null pointer for the timeout is `none`. -/
structure SelectRequest where
  nfds : ℤ
  rdfs : List ℤ
  wrfs : List ℤ
  erfs : List ℤ
  timeout : Option Timeval
deriving DecidableEq

/-- `ps_HandleSelect` up to the call of `select`, over the events it meets. Source:
lines 204-249 of `js/src/ext/psselect.c`. -/
def requestOf (stray : Timeval) (events : List (Σ _ : ℤ, PSSelectEvent)) : SelectRequest :=
  let s := selectSetup stray events
  { nfds := s.max + 1, rdfs := s.rdfs, wrfs := s.wrfs, erfs := s.erfs
    timeout :=
      if noTimeout s.timeout then none else some ⟨s.timeout.tv_sec, s.timeout.tv_nsec * 1000⟩ }

/-- What it asks for over the registered events. Source: `ps_HandleSelect`, lines 204-249
of `js/src/ext/psselect.c`. -/
def selectRequest (stray : Timeval) (reg : Registry) : SelectRequest := requestOf stray reg.entries

/-! ### The descriptor sets -/

section Sets

variable {stray : Timeval} {reg : Registry} {fd : ℤ} {l : List (Σ _ : ℤ, PSSelectEvent)}
  {s : SelectSetup}

/-- What the loop makes of the sets and of the largest descriptor. -/
theorem setup_sets :
    (fd ∈ (l.foldl (fun s e => s.add e.1 e.2) s).rdfs ↔
      fd ∈ s.rdfs ∨ ∃ ev, ⟨fd, ev⟩ ∈ l ∧ ev.wants PSFDSET_READ = true) ∧
    (fd ∈ (l.foldl (fun s e => s.add e.1 e.2) s).wrfs ↔
      fd ∈ s.wrfs ∨ ∃ ev, ⟨fd, ev⟩ ∈ l ∧ ev.wants PSFDSET_WRITE = true) ∧
    (fd ∈ (l.foldl (fun s e => s.add e.1 e.2) s).erfs ↔ fd ∈ s.erfs ∨ ∃ ev, ⟨fd, ev⟩ ∈ l) ∧
    s.max ≤ (l.foldl (fun s e => s.add e.1 e.2) s).max ∧
    ∀ e ∈ l, e.1 ≤ (l.foldl (fun s e => s.add e.1 e.2) s).max := by
  induction l generalizing s with
  | nil => simp
  | cons e l ih =>
      obtain ⟨k, ev⟩ := e
      obtain ⟨hr, hw, he, hmax, hall⟩ := @ih (s.add k ev)
      have hadd : s.max ≤ (s.add k ev).max ∧ k ≤ (s.add k ev).max := by
        unfold SelectSetup.add
        dsimp only
        split_ifs <;> omega
      rw [List.foldl_cons]
      refine ⟨hr.trans ?_, hw.trans ?_, he.trans ?_, hadd.1.trans hmax, ?_⟩
      · unfold SelectSetup.add
        dsimp only
        by_cases hwants : ev.wants PSFDSET_READ = true <;> grind
      · unfold SelectSetup.add
        dsimp only
        by_cases hwants : ev.wants PSFDSET_WRITE = true <;> grind
      · unfold SelectSetup.add
        grind
      · intro e he
        rcases List.mem_cons.1 he with rfl | he
        · exact hadd.2.trans hmax
        · exact hall e he

variable (stray reg) in
/-- **`select` is asked for the registered interests**, and for no others; its first
argument is above every registered descriptor. -/
theorem selectRequest_sets :
    (∀ fd, fd ∈ (selectRequest stray reg).rdfs ↔
      ∃ ev, ⟨fd, ev⟩ ∈ reg.entries ∧ ev.wants PSFDSET_READ = true) ∧
    (∀ fd, fd ∈ (selectRequest stray reg).wrfs ↔
      ∃ ev, ⟨fd, ev⟩ ∈ reg.entries ∧ ev.wants PSFDSET_WRITE = true) ∧
    (∀ fd, fd ∈ (selectRequest stray reg).erfs ↔ ∃ ev, ⟨fd, ev⟩ ∈ reg.entries) ∧
    ∀ e ∈ reg.entries, e.1 < (selectRequest stray reg).nfds := by
  have hsets := fun fd => @setup_sets fd reg.entries ⟨[], [], [], 0, setNoTimeout, stray⟩
  refine ⟨fun fd => (hsets fd).1.trans ?_, fun fd => (hsets fd).2.1.trans ?_,
    fun fd => (hsets fd).2.2.1.trans ?_, fun e he => ?_⟩
  · simp
  · simp
  · simp
  · have hle : e.1 ≤ (selectSetup stray reg.entries).max := (hsets 0).2.2.2.2 e he
    show e.1 < (selectSetup stray reg.entries).max + 1
    omega

end Sets

/-! ### The timeout -/

namespace Timespec

/-- Seconds and nanoseconds have the same sign, and the nanoseconds are less than a
second. -/
def Coherent (t : Timespec) : Prop :=
  0 ≤ t.tv_sec ∧ 0 ≤ t.tv_nsec ∧ t.tv_nsec < NS_PER_SEC ∨
    t.tv_sec ≤ 0 ∧ -NS_PER_SEC < t.tv_nsec ∧ t.tv_nsec ≤ 0

instance (t : Timespec) : Decidable t.Coherent := inferInstanceAs (Decidable (_ ∨ _))

variable {t d first second : Timespec}

/-- What `ps_AddSelect` stores. -/
theorem addTimeout_coherent (timeout : ℤ) : (addTimeout timeout).Coherent := by
  unfold addTimeout Coherent NS_PER_SEC
  split_ifs
  · right
    decide
  · rcases Int.le_total 0 timeout with hnn | hneg
    · left
      rw [Int.tdiv_eq_ediv_of_nonneg hnn, Int.tmod_eq_emod_of_nonneg hnn]
      dsimp only
      omega
    · right
      obtain ⟨n, rfl⟩ : ∃ n, timeout = -n := ⟨-timeout, by omega⟩
      rw [Int.neg_tdiv, Int.neg_tmod, Int.tdiv_eq_ediv_of_nonneg (by omega),
        Int.tmod_eq_emod_of_nonneg (by omega)]
      dsimp only
      omega

/-- A pass leaves the sentinel, and makes everything else normalised. -/
theorem Coherent.update (ht : t.Coherent) (hd : d.Normalised) :
    (updateTimeout d t).Coherent := by
  obtain ⟨hs, hn, hlt⟩ := hd
  unfold updateTimeout
  unfold Coherent NS_PER_SEC at *
  split_ifs with hno
  · exact ht
  · left
    dsimp only at *
    split_ifs <;> dsimp only at * <;> omega

/-- The minimum is one of the two; it is the sentinel only if both are, and otherwise
not above either. -/
theorem minimumTimeout_spec (h₁ : first.Coherent) (h₂ : second.Coherent) :
    (minimumTimeout first second = first ∨ minimumTimeout first second = second) ∧
    (noTimeout first = false → noTimeout (minimumTimeout first second) = false ∧
      (minimumTimeout first second).ns ≤ first.ns) ∧
    (noTimeout second = false → noTimeout (minimumTimeout first second) = false ∧
      (minimumTimeout first second).ns ≤ second.ns) := by
  unfold minimumTimeout
  unfold Coherent ns NS_PER_SEC at *
  split_ifs with hf hs hlt
  · exact ⟨.inr rfl, fun h => absurd (h.symm.trans hf) (by decide), fun h => ⟨h, le_rfl⟩⟩
  · exact ⟨.inl rfl, fun h => ⟨h, le_rfl⟩, fun h => absurd (h.symm.trans hs) (by decide)⟩
  · exact ⟨.inl rfl, fun h => ⟨h, le_rfl⟩, fun _ => ⟨by simpa using hf, by omega⟩⟩
  · exact ⟨.inr rfl, fun _ => ⟨by simpa using hs, by omega⟩, fun h => ⟨h, le_rfl⟩⟩

end Timespec

namespace Registry

/-- Every timeout is one that was stored by `ps_AddSelect` or a pass. -/
def Timed (reg : Registry) : Prop := ∀ e ∈ reg.entries, e.2.timeout.Coherent

/-- The smallest remaining timeout: one of the events has it, and none has less. -/
structure Smallest (reg : Registry) (t : Timespec) : Prop where
  stored : ∃ e ∈ reg.entries, e.2.timeout = t
  finite : noTimeout t = false
  least : ∀ e ∈ reg.entries, noTimeout e.2.timeout = false → t.ns ≤ e.2.timeout.ns

/-- A call of the two functions, or a pass between two readings of the clock. -/
def Next (reg : Registry) (s : SelectStep) (reg' : Registry) : Prop :=
  match s with
  | .call c => reg' = c.onMap reg
  | .pass start stop =>
      Timespec.Monotonic start stop ∧ reg' = reg.updateTimeouts (diffTimespec start stop)

variable {reg reg' : Registry} {s : SelectStep} {ls : List SelectStep} {t t' : Timespec}
  {l : List (Σ _ : ℤ, PSSelectEvent)} {stray : Timeval}

/-- A coherent timeout may be registered. -/
theorem Timed.insert (h : reg.Timed) (fd : ℤ) (ev : PSSelectEvent) (hev : ev.timeout.Coherent) :
    Timed (AList.insert fd ev reg) := by
  intro e he
  rcases List.mem_cons.1 he with rfl | he
  · exact hev
  · exact h e (List.mem_of_mem_eraseP he)

/-- **One call or pass** keeps all timeouts coherent. -/
theorem Timed.next (h : reg.Timed) (hs : reg.Next s reg') : reg'.Timed := by
  cases s with
  | call c =>
      obtain rfl := hs
      rcases c with ⟨fd, mask, obj, func, errfunc, timeout, _ | event⟩ | fd
      · exact h
      · exact h.insert fd ⟨mask, obj, func, errfunc, _⟩ (Timespec.addTimeout_coherent timeout)
      · exact fun e he => h e (List.mem_of_mem_eraseP he)
  | pass start stop =>
      obtain ⟨hclock, rfl⟩ := hs
      intro e he
      obtain ⟨e', he', rfl⟩ := List.mem_map.1 he
      exact (h e' he').update hclock.diff.1

/-- **Every registry is timed**: it was built by calls and passes. -/
theorem timed_of_run (hrun : Run Next ∅ ls reg) : reg.Timed :=
  hrun.invariant (P := Timed) (fun _ _ _ h hs => h.next hs) fun e he => by cases he

/-- The minimum over a list of events. -/
theorem foldl_minimumTimeout (hl : ∀ e ∈ l, e.2.timeout.Coherent) (ht : t.Coherent)
    (hm : l.foldl (fun t e => minimumTimeout t e.2.timeout) t = t') :
    (t' = t ∨ ∃ e ∈ l, e.2.timeout = t') ∧
    (noTimeout t = false → noTimeout t' = false ∧ t'.ns ≤ t.ns) ∧
    ∀ e ∈ l, noTimeout e.2.timeout = false → noTimeout t' = false ∧ t'.ns ≤ e.2.timeout.ns := by
  induction l generalizing t with
  | nil =>
      obtain rfl : t = t' := hm
      exact ⟨.inl rfl, fun h => ⟨h, le_rfl⟩, fun e he => by cases he⟩
  | cons e l ih =>
      have hev := hl e (List.mem_cons_self ..)
      obtain ⟨hone, hfirst, hsecond⟩ := Timespec.minimumTimeout_spec ht hev
      have hcoh : (minimumTimeout t e.2.timeout).Coherent := by
        rcases hone with h | h <;> rw [h] <;> assumption
      obtain ⟨hmem, hacc, hrest⟩ := ih (fun e he => hl e (List.mem_cons_of_mem _ he)) hcoh hm
      refine ⟨?_, fun h => ?_, fun e' he' h => ?_⟩
      · rcases hmem with rfl | ⟨e', he', heq⟩
        · rcases hone with h | h
          · exact .inl h
          · exact .inr ⟨e, List.mem_cons_self .., h.symm⟩
        · exact .inr ⟨e', List.mem_cons_of_mem _ he', heq⟩
      · obtain ⟨hfin, hle⟩ := hfirst h
        exact ⟨(hacc hfin).1, (hacc hfin).2.trans hle⟩
      · rcases List.mem_cons.1 he' with rfl | he'
        · obtain ⟨hfin, hle⟩ := hsecond h
          exact ⟨(hacc hfin).1, (hacc hfin).2.trans hle⟩
        · exact hrest e' he' h

variable (stray) in
/-- The timeout the loop finds. -/
theorem selectSetup_timeout : (selectSetup stray reg.entries).timeout =
    reg.entries.foldl (fun t e => minimumTimeout t e.2.timeout) setNoTimeout := by
  suffices h : ∀ (l : List (Σ _ : ℤ, PSSelectEvent)) (s : SelectSetup),
      (l.foldl (fun s e => s.add e.1 e.2) s).timeout =
        l.foldl (fun t e => minimumTimeout t e.2.timeout) s.timeout from h _ _
  intro l
  induction l with
  | nil => exact fun _ => rfl
  | cons e l ih => exact fun s => ih (s.add e.1 e.2)

variable (stray) in
/-- **The loop finds the smallest timeout**, whatever the order of the events and
whatever `tv` held: there is one unless no timeout is finite. -/
theorem smallest_timeout (h : reg.Timed) :
    noTimeout (selectSetup stray reg.entries).timeout = true ∧
        (∀ e ∈ reg.entries, noTimeout e.2.timeout = true) ∨
      reg.Smallest (selectSetup stray reg.entries).timeout := by
  obtain ⟨hmem, -, hall⟩ := foldl_minimumTimeout h (.inr (by decide))
    (selectSetup_timeout stray).symm
  cases hno : noTimeout (selectSetup stray reg.entries).timeout with
  | true =>
      left
      refine ⟨rfl, fun e he => ?_⟩
      by_contra hfin
      have hclash := (hall e he (Bool.eq_false_iff.2 hfin)).1
      rw [hno] at hclash
      cases hclash
  | false =>
      right
      refine ⟨?_, hno, fun e he hfin => (hall e he hfin).2⟩
      rcases hmem with heq | hstored
      · rw [heq] at hno
        cases hno
      · exact hstored

/-- Two smallest timeouts are the same time. -/
theorem Smallest.ns_eq (h : reg.Smallest t) (h' : reg.Smallest t') : t.ns = t'.ns := by
  obtain ⟨e, he, rfl⟩ := h.stored
  obtain ⟨e', he', rfl⟩ := h'.stored
  exact Int.le_antisymm (h.least e' he' h'.finite) (h'.least e he h.finite)

end Registry

/-! ### The `timeval` -/

/-- In microseconds. -/
def Timeval.us (tv : Timeval) : ℤ := tv.tv_sec * 1000000 + tv.tv_usec

/-- What the fifth argument of `select` is meant to be: null if no event has a timeout,
otherwise well formed, not above the smallest remaining timeout rounded up to a
microsecond, and within a microsecond of it. -/
def MeetsTimeouts (reg : Registry) (ptv : Option Timeval) : Prop :=
  ((∀ e ∈ reg.entries, noTimeout e.2.timeout = true) → ptv = none) ∧
  ∀ t, reg.Smallest t → ∃ tv, ptv = some tv ∧ 0 ≤ tv.tv_usec ∧ tv.tv_usec < 1000000 ∧
    tv.us ≤ (t.ns + 999) / 1000 ∧ t.ns - 1000 ≤ tv.us * 1000 ∧ tv.us * 1000 ≤ t.ns + 1000

/-- **The timeout of `select` is right for whole seconds only**, whatever `tv` held and in
whatever order the events are listed: what it is given is the smallest timeout of the
events exactly if that has no nanoseconds, or there is none.  The nanoseconds are
multiplied by 1000 to be microseconds.  Source: `ps_HandleSelect` (lines 204-248) and
`minimum_timeout` (lines 137-158) of `js/src/ext/psselect.c`. -/
theorem timeval_iff (stray : Timeval) (reg : Registry) (hreg : reg.Timed) :
    MeetsTimeouts reg (selectRequest stray reg).timeout ↔
      ∀ t, reg.Smallest t → t.tv_nsec = 0 := by
  have hptv : (selectRequest stray reg).timeout =
      if noTimeout (selectSetup stray reg.entries).timeout then none
      else some ⟨(selectSetup stray reg.entries).timeout.tv_sec,
        (selectSetup stray reg.entries).timeout.tv_nsec * 1000⟩ := rfl
  rcases Registry.smallest_timeout stray hreg with ⟨hno, hall⟩ | hmin
  · have hnone : ∀ t, ¬reg.Smallest t := by
      intro t ht
      obtain ⟨e, he, rfl⟩ := ht.stored
      exact absurd ((hall e he).symm.trans ht.finite) (by decide)
    rw [hptv, if_pos hno]
    exact ⟨fun _ t ht => absurd ht (hnone t), fun _ => ⟨fun _ => rfl, fun t ht => absurd ht (hnone t)⟩⟩
  · rw [hptv, if_neg (Bool.eq_false_iff.1 hmin.finite)]
    generalize (selectSetup stray reg.entries).timeout = m at hmin
    have hcoh : m.Coherent := by
      obtain ⟨e, he, rfl⟩ := hmin.stored
      exact hreg e he
    constructor
    · rintro ⟨-, hmeets⟩ t ht
      obtain ⟨_, ⟨⟩, hlo, hhi, hle, -, -⟩ := hmeets m hmin
      have hns := ht.ns_eq hmin
      obtain ⟨e, he, rfl⟩ := ht.stored
      have hcoh' := hreg e he
      unfold Timespec.Coherent Timespec.ns NS_PER_SEC at *
      unfold Timeval.us at hle
      dsimp only at *
      omega
    · intro hzero
      refine ⟨fun hall => ?_, fun t ht => ⟨_, rfl, ?_⟩⟩
      · obtain ⟨e, he, rfl⟩ := hmin.stored
        exact absurd ((hall e he).symm.trans hmin.finite) (by decide)
      · have hm := hzero m hmin
        have hns := ht.ns_eq hmin
        unfold Timespec.ns NS_PER_SEC at *
        unfold Timeval.us
        dsimp only
        omega

/-- The registry after one call of `ps_AddSelect`, for descriptor 3. -/
def onlyEvent (timeout : ℤ) : Registry :=
  AList.insert 3 ⟨PSFDSET_WRITE, 0, .tcpSocketSelectCallback, .tcpSocketSelectErrorCallback,
    addTimeout timeout⟩ ∅

/-- The timeout of the only event is the smallest. -/
theorem onlyEvent_smallest {timeout : ℤ} (h : noTimeout (addTimeout timeout) = false) :
    (onlyEvent timeout).Smallest (addTimeout timeout) where
  stored := ⟨_, List.mem_cons_self .., rfl⟩
  finite := h
  least e he _ := by
    obtain rfl := List.mem_singleton.1 he
    exact le_rfl

/-- Five seconds. -/
theorem timeval_whole_seconds :
    MeetsTimeouts (onlyEvent 5000) (selectRequest ⟨7, 7⟩ (onlyEvent 5000)).timeout := by
  refine (timeval_iff ⟨7, 7⟩ (onlyEvent 5000) ?_).2 fun t ht => ?_
  · exact Registry.Timed.insert (fun e he => by cases he) 3 _ (Timespec.addTimeout_coherent 5000)
  · obtain ⟨e, he, rfl⟩ := ht.stored
    obtain rfl := List.mem_singleton.1 he
    rfl

/-- **A second and a half** becomes a second and half a million of them. -/
theorem timeval_scaled_up : ¬∀ stray reg, Registry.Timed reg →
    MeetsTimeouts reg (selectRequest stray reg).timeout := by
  intro hclaim
  have htimed : (onlyEvent 1500).Timed :=
    Registry.Timed.insert (fun e he => by cases he) 3 _ (Timespec.addTimeout_coherent 1500)
  obtain ⟨tv, htv, -, hlt, -⟩ := (hclaim ⟨0, 0⟩ _ htimed).2 _ (onlyEvent_smallest (by decide))
  have htimeval : (selectRequest ⟨0, 0⟩ (onlyEvent 1500)).timeout = some ⟨1, 500000000000⟩ := by
    decide
  rw [htimeval] at htv
  cases htv
  revert hlt
  decide

end ProntoScript
