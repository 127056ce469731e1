/-
# What `run` reports

`JSUnit_Run` (`js/src/ext/jsunit.c`, lines 479-548) goes through a list that `add` makes
longer meanwhile, and both `run` and `assert` write results to its cases, the latter
through `suite->test`.  A `TestRecord` says independently of the suite what happened:
which functions were added, which `run` started, and for which of them the function or an
assertion failed before the next one started.  As long as `run` is not called on the
suite again while it runs, the suite agrees with the record at every step (`InStep`), and
where a run gets to its end the verdict says what the record says (`step_runReports`).

Whether it gets there, and whether the functions of the cases are still there when they are
called, is a matter of `ProntoScript.System.RunReport`.
-/

import ProntoScript.System.Collector
import ProntoScript.System.Verdict

namespace ProntoScript

/-- The result of a case by whether it failed. -/
def TestResult.ofFailed (failed : Bool) : TestResult := if failed then .fail else .pass

/-- What happened to a suite: the functions added to it, those its latest `run` has
started, and which of these have failed. -/
structure TestRecord where
  added : List JSVal
  started : List JSVal
  failed : List Bool
deriving DecidableEq, Repr

/-- Nothing happened. -/
def TestRecord.empty : TestRecord := ⟨[], [], []⟩

/-- The case that was started last has failed. -/
def TestRecord.markFailed (rec : TestRecord) : TestRecord :=
  { rec with failed := rec.failed.set (rec.failed.length - 1) true }

/-- The frames of a suite that is being run: a case, and whether its function is
running. -/
def runsOf (s : ObjId) (stack : List CallFrame) : List (ℕ × Bool) :=
  stack.filterMap fun f =>
    match f with
    | .run t i inTest => if t = s then some (i, inTest) else none
    | _ => none

/-- A run of the suite is one of its runs. -/
theorem runsOf_run_self {s : ObjId} {i : ℕ} {inTest : Bool} {rest : List CallFrame} :
    runsOf s (.run s i inTest :: rest) = (i, inTest) :: runsOf s rest := by
  simp [runsOf]

/-- A run of another suite is none of them. -/
theorem runsOf_run_ne {s t : ObjId} {i : ℕ} {inTest : Bool} {rest : List CallFrame} (h : t ≠ s) :
    runsOf s (.run t i inTest :: rest) = runsOf s rest := by
  simp [runsOf, h]

/-- A run of a suite has got to the case, and the record agrees with the results. -/
structure Traverses (suite : JSUnitSuite) (started : List JSVal) (failed : List Bool) (i : ℕ)
    (inTest : Bool) : Prop where
  length : failed.length = i + inTest.toNat
  started : started = suite.funcs.take failed.length
  inRange : failed.length ≤ suite.cases.length
  current : inTest = true → suite.test = some i
  result : ∀ j, j < failed.length →
    suite.cases[j]?.map JSUnitTestCase.result = failed[j]?.map TestResult.ofFailed

section

variable {suite : JSUnitSuite} {started : List JSVal} {failed : List Bool} {i : ℕ} {inTest : Bool}

/-- The function of the next case starts. -/
theorem Traverses.start {f : JSVal} (h : Traverses suite started failed i false)
    (hf : suite.funcs[i]? = some f) :
    Traverses (suite.startCase i) (started ++ [f]) (failed ++ [false]) i true := by
  have hlen : failed.length = i := h.length
  have hi : i < suite.cases.length := by
    have := (List.getElem?_eq_some_iff.1 hf).1
    rwa [JSUnitSuite.funcs, List.length_map] at this
  refine ⟨by simp [hlen], ?_, ?_, fun _ => rfl, fun j hj => ?_⟩
  · rw [funcs_startCase, h.started, List.length_append, List.length_singleton, hlen,
      List.take_add_one, hf]
    rfl
  · rw [List.length_append, List.length_singleton, JSUnitSuite.startCase, setResult_length, hlen]
    exact hi
  · rw [List.length_append, List.length_singleton, hlen] at hj
    rw [JSUnitSuite.startCase, getElem?_setResult]
    by_cases hij : i = j
    · subst hij
      rw [if_pos rfl, List.getElem?_append_right (by omega), hlen, Nat.sub_self]
      dsimp only
      rw [List.getElem?_eq_getElem hi]
      rfl
    · rw [if_neg hij, List.getElem?_append_left (by omega)]
      exact h.result j (by omega)

/-- A failure is recorded in the case that is running. -/
theorem Traverses.fail (h : Traverses suite started failed i true) :
    Traverses (suite.setResult i .fail) started (failed.set (failed.length - 1) true) i true := by
  have hlen : failed.length = i + 1 := h.length
  refine ⟨by rw [List.length_set]; exact h.length, ?_, ?_, h.current, fun j hj => ?_⟩
  · rw [funcs_setResult, List.length_set]
    exact h.started
  · rw [List.length_set, setResult_length]
    exact h.inRange
  · rw [List.length_set] at hj
    rw [getElem?_setResult, hlen, Nat.add_sub_cancel]
    by_cases hij : i = j
    · subst hij
      rw [if_pos rfl, List.getElem?_set_self hj]
      have hi : i < suite.cases.length := Nat.lt_of_lt_of_le hj h.inRange
      rw [List.getElem?_eq_getElem hi]
      rfl
    · rw [if_neg hij, List.getElem?_set_ne hij]
      exact h.result j hj

/-- The function of the case has returned. -/
theorem Traverses.returned (h : Traverses suite started failed i true) (ok : Bool) :
    Traverses (suite.endCase i ok) started
      (if ok then failed else failed.set (failed.length - 1) true) (i + 1) false := by
  unfold JSUnitSuite.endCase
  have hnext : ∀ {suite failed}, Traverses suite started failed i true →
      Traverses suite started failed (i + 1) false :=
    fun h => ⟨h.length, h.started, h.inRange, fun hf => (by cases hf), h.result⟩
  cases ok with
  | true => exact hnext h
  | false => exact hnext h.fail

/-- A case is added at the end. -/
theorem Traverses.add {argv : List JSVal} {mem : Bool} (h : Traverses suite started failed i inTest) :
    Traverses (jsunitAdd suite argv mem).1 started failed i inTest := by
  have hprefix : ∃ more, (jsunitAdd suite argv mem).1.cases = suite.cases ++ more := by
    unfold jsunitAdd
    split
    · exact ⟨[], (List.append_nil _).symm⟩
    · split_ifs
      · exact ⟨_, rfl⟩
      · exact ⟨[], (List.append_nil _).symm⟩
  obtain ⟨more, hcases⟩ := hprefix
  refine ⟨h.length, ?_, ?_, fun hin => ?_, fun j hj => ?_⟩
  · rw [JSUnitSuite.funcs, hcases, List.map_append, List.take_append_of_le_length]
    · exact h.started
    · rw [List.length_map]
      exact h.inRange
  · rw [hcases, List.length_append]
    exact Nat.le_add_right_of_le h.inRange
  · rw [remembers_jsunitAdd.test]
    exact h.current hin
  · rw [hcases, List.getElem?_append_left (Nat.lt_of_lt_of_le hj h.inRange)]
    exact h.result j hj

/-- An assertion that does not fail leaves the suite alone. -/
theorem jsunitAssert_passed {suite' : JSUnitSuite} {argv : List JSVal} {r : JSUnitReturn}
    (h : jsunitAssert suite argv = .returned suite' r) (hf : assertFails argv = false) :
    suite' = suite := by
  rcases argv with _ | ⟨expected, _ | ⟨actual, rest⟩⟩
  · cases h
    rfl
  · cases h
    rfl
  · unfold jsunitAssert at h
    unfold assertFails at hf
    dsimp only at h hf
    rcases hcmp : assertCompare expected actual with _ | (_ | _) <;> rw [hcmp] at h hf
    · cases h
    · cases hf
    · cases h
      rfl

/-- What `run` reports at its end is what the record says: every case was started, in the
order in which they were added, the results are those of the record, no case is without
one, and the verdict fails if and only if a case does. -/
structure Reports (suite : JSUnitSuite) (rec : TestRecord) : Prop where
  executed : rec.started = suite.funcs
  order : suite.funcs = rec.added
  results : suite.cases.map JSUnitTestCase.result = rec.failed.map TestResult.ofFailed
  totals : suite.cases.length =
    suite.cases.countP (·.result = .pass) + suite.cases.countP (·.result = .fail)
  allRun : suite.verdict ≠ .error (some .notAllTestCasesRun)
  verdict : suite.verdict ≠ .ok () ↔ ∃ c ∈ suite.cases, c.result = .fail

/-- The results of a run that has got to the end. -/
theorem Traverses.results (h : Traverses suite started failed i false)
    (hi : suite.cases.length ≤ i) :
    suite.cases.map JSUnitTestCase.result = failed.map TestResult.ofFailed := by
  have hlen : failed.length = suite.cases.length := by
    have hlen : failed.length = i := h.length
    have hle := h.inRange
    omega
  refine List.ext_getElem? fun j => ?_
  rw [List.getElem?_map, List.getElem?_map]
  by_cases hj : j < failed.length
  · exact h.result j hj
  · rw [List.getElem?_eq_none (by omega), List.getElem?_eq_none (by omega)]
    rfl

/-- Where every case passed or failed, the verdict counts all of them. -/
theorem verdict_of_results (h : ∀ c ∈ suite.cases, c.result = .pass ∨ c.result = .fail) :
    suite.cases.length =
        suite.cases.countP (·.result = .pass) + suite.cases.countP (·.result = .fail) ∧
      suite.verdict ≠ .error (some .notAllTestCasesRun) ∧
      (suite.verdict ≠ .ok () ↔ ∃ c ∈ suite.cases, c.result = .fail) := by
  have htotal : suite.cases.length =
      suite.cases.countP (·.result = .pass) + suite.cases.countP (·.result = .fail) := by
    rw [List.length_eq_countP_add_countP (fun c : JSUnitTestCase => decide (c.result = .pass))]
    congr 1
    refine List.countP_congr fun c hc => ?_
    rcases h c hc with hres | hres <;> simp [hres]
  have hfail : (0 < suite.cases.countP (·.result = .fail)) ↔ ∃ c ∈ suite.cases, c.result = .fail := by
    rw [List.countP_pos_iff]
    simp only [decide_eq_true_eq]
  refine ⟨htotal, ?_⟩
  rw [← hfail]
  unfold JSUnitSuite.verdict
  dsimp only
  by_cases hpos : 0 < suite.cases.countP (·.result = .fail)
  · rw [if_pos hpos]
    exact ⟨by rintro ⟨⟩, fun _ => hpos, fun _ => by rintro ⟨⟩⟩
  · rw [if_neg hpos, if_neg (not_not.2 htotal)]
    exact ⟨by rintro ⟨⟩, fun hne => absurd rfl hne, fun hpos' => absurd hpos' hpos⟩

/-- **A run that has got to the end reports** what the record says. -/
theorem Traverses.reports {rec : TestRecord} (h : Traverses suite rec.started rec.failed i false)
    (hi : suite.cases.length ≤ i) (hadded : suite.funcs = rec.added) : Reports suite rec := by
  have hresults := h.results hi
  have hall : ∀ c ∈ suite.cases, c.result = .pass ∨ c.result = .fail := by
    intro c hc
    have hmem : c.result ∈ rec.failed.map TestResult.ofFailed := by
      rw [← hresults]
      exact List.mem_map_of_mem hc
    obtain ⟨failed, -, hres⟩ := List.mem_map.1 hmem
    rw [← hres]
    cases failed
    · exact .inl rfl
    · exact .inr rfl
  obtain ⟨htotals, hrun, hverdict⟩ := verdict_of_results hall
  refine ⟨?_, hadded, hresults, htotals, hrun, hverdict⟩
  have hlen : rec.failed.length = suite.funcs.length := by
    have hlength := congrArg List.length hresults
    rw [List.length_map, List.length_map] at hlength
    rw [JSUnitSuite.funcs, List.length_map, hlength]
  rw [h.started, hlen, List.take_length]

end

namespace Engine

/-- What a step does to the record of the tests of a suite. -/
def noteTests (s : ObjId) (e : Engine) (l : EngineLabel) (rec : TestRecord) : TestRecord :=
  match l with
  | .op (.run t) => if t = s then { rec with started := [], failed := [] } else rec
  | .op (.assert t argv) => if t = s ∧ assertFails argv = true then rec.markFailed else rec
  | .nextTest =>
      match e.stack with
      | .run t i _ :: _ =>
          match (e.funcs s)[i]? with
          | some f =>
              if t = s then
                { rec with started := rec.started ++ [f], failed := rec.failed ++ [false] }
              else rec
          | none => rec
      | _ => rec
  | .ended =>
      match e.stack with
      | .run t _ _ :: _ => if t = s ∧ e.failing = true then rec.markFailed else rec
      | _ => rec
  | _ => rec

/-- What a step does to the record of a suite. -/
def noteRun (s : ObjId) (e : Engine) (l : EngineLabel) (_ : Engine) (rec : TestRecord) :
    TestRecord :=
  { noteTests s e l rec with
    added :=
      match e.adds l with
      | some (t, _, f) => if t = s then rec.added ++ [f] else rec.added
      | none => rec.added }

/-- `run` is not called on the suite while it runs. -/
def RunsOnce (s : ObjId) (x : Engine × TestRecord) : EngineLabel → Prop
  | .op (.run t) => t = s → runsOf s x.1.stack = []
  | _ => True

/-- Where a run of the suite ends, it reports what the record says, and fails exactly if a
case has failed. -/
def RunReports (s : ObjId) (x : Engine × TestRecord) (l : EngineLabel) (y : Engine × TestRecord) :
    Prop :=
  ∀ i rest suite, l = .nextTest → x.1.stack = .run s i false :: rest → x.1.suites s = some suite →
    suite.cases.length ≤ i →
    Reports suite x.2 ∧ (y.1.failing = true ↔ ∃ c ∈ suite.cases, c.result = .fail)

/-- A run of the suite, should there be one, is the only one, and the record agrees with
it; between two functions it is the innermost call. -/
def Running (s : ObjId) (e : Engine) (started : List JSVal) (failed : List Bool) : Prop :=
  ∀ i inTest, (i, inTest) ∈ runsOf s e.stack → runsOf s e.stack = [(i, inTest)] ∧
    (inTest = false → e.stack.head? = some (.run s i false)) ∧
    ∃ suite, e.suites s = some suite ∧ Traverses suite started failed i inTest

/-- The record agrees with the suite. -/
structure InStep (s : ObjId) (e : Engine) (rec : TestRecord) : Prop where
  added : e.funcs s = rec.added
  running : Running s e rec.started rec.failed

section

variable {s : ObjId} {e e' : Engine} {l : EngineLabel} {rec : TestRecord} {started : List JSVal}
  {failed : List Bool}

/-- A step that leaves the suite and its runs alone. -/
theorem Running.of_eq (h : Running s e started failed) (hsuites : e'.suites s = e.suites s)
    (hruns : runsOf s e'.stack = runsOf s e.stack)
    (hhead : e'.stack.head? = e.stack.head? ∨ ∀ i, e.stack.head? ≠ some (.run s i false)) :
    Running s e' started failed := by
  intro i inTest hmem
  rw [hruns] at hmem ⊢
  obtain ⟨hone, hbetween, suite, hsuite, htrav⟩ := h i inTest hmem
  refine ⟨hone, fun hin => ?_, suite, hsuites.trans hsuite, htrav⟩
  rcases hhead with heq | hne
  · rw [heq]
    exact hbetween hin
  · exact absurd (hbetween hin) (hne i)

/-- So does a step of a call that is not between two functions of the suite. -/
theorem Running.of_top {frame : CallFrame} {rest : List CallFrame}
    (h : Running s e started failed) (hstack : e.stack = frame :: rest)
    (hframe : ∀ i, frame ≠ .run s i false) (hsuites : e'.suites s = e.suites s)
    (hruns : runsOf s e'.stack = runsOf s (frame :: rest)) : Running s e' started failed := by
  refine h.of_eq hsuites (by rw [hruns, hstack]) (.inr fun i => ?_)
  rw [hstack]
  exact fun heq => hframe i (Option.some.inj heq)

/-- Where a run of the suite is the innermost call there is no other below. -/
theorem Running.innermost {i : ℕ} {inTest : Bool} {rest : List CallFrame} {suite : JSUnitSuite}
    (h : Running s e started failed) (hstack : e.stack = .run s i inTest :: rest)
    (hsuite : e.suites s = some suite) :
    runsOf s rest = [] ∧ Traverses suite started failed i inTest := by
  have hruns : runsOf s e.stack = (i, inTest) :: runsOf s rest := by
    rw [hstack, runsOf_run_self]
  obtain ⟨hone, -, suite₁, hsuite₁, htrav⟩ := h i inTest (hruns ▸ List.mem_cons_self ..)
  obtain rfl := Option.some.inj (hsuite.symm.trans hsuite₁)
  exact ⟨(List.cons.inj (hruns.symm.trans hone)).2, htrav⟩

/-- A run of the suite goes on, and there is no other. -/
theorem Running.of_only {i : ℕ} {inTest : Bool} {rest : List CallFrame} {suite : JSUnitSuite}
    (hnone : runsOf s rest = []) (hstack : e.stack = .run s i inTest :: rest)
    (hsuite : e.suites s = some suite) (htrav : Traverses suite started failed i inTest) :
    Running s e started failed := by
  have hone : runsOf s e.stack = [(i, inTest)] := by
    rw [hstack, runsOf_run_self, hnone]
  intro j inTest' hmem
  rw [hone] at hmem ⊢
  obtain ⟨rfl, rfl⟩ := Prod.mk.inj (List.mem_singleton.1 hmem)
  exact ⟨rfl, fun hin => by rw [hstack, hin]; rfl, suite, hsuite, htrav⟩

/-- A suite is stored that its runs have got to. -/
theorem Running.of_suite {suite suite' : JSUnitSuite} {started' : List JSVal}
    {failed' : List Bool} (h : Running s e started failed) (hs : e.suites s = some suite)
    (hs' : e'.suites s = some suite') (hstack : e'.stack = e.stack)
    (htrav : ∀ i inTest, (i, inTest) ∈ runsOf s e.stack → Traverses suite started failed i inTest →
      Traverses suite' started' failed' i inTest) :
    Running s e' started' failed' := by
  intro i inTest hmem
  rw [hstack] at hmem ⊢
  obtain ⟨hone, hbetween, suite₁, hsuite, htrav₁⟩ := h i inTest hmem
  obtain rfl := Option.some.inj (hs.symm.trans hsuite)
  exact ⟨hone, hbetween, suite', hs', htrav i inTest hmem htrav₁⟩

/-- While a script runs, the suite is not between two functions. -/
theorem scriptRuns_between (h : e.scriptRuns = true) (i : ℕ) :
    e.stack.head? ≠ some (.run s i false) := by
  obtain ⟨-, f, rest, hstack, hf⟩ := head_of_scriptRuns h
  rw [hstack]
  rintro ⟨⟩
  cases hf

/-- A script calls something that is no run of the suite. -/
theorem Running.push {frame : CallFrame} (h : Running s e started failed)
    (hruns : e.scriptRuns = true) (hframe : runsOf s [frame] = [])
    (hsuites : e'.suites s = e.suites s) (hstack : e'.stack = frame :: e.stack) :
    Running s e' started failed := by
  refine h.of_eq hsuites ?_ (.inr (scriptRuns_between hruns))
  rw [hstack, show frame :: e.stack = [frame] ++ e.stack from rfl, runsOf, List.filterMap_append]
  show runsOf s [frame] ++ runsOf s e.stack = runsOf s e.stack
  rw [hframe]
  rfl

/-- Where there is no suite, there is none to be run. -/
theorem Running.of_none (h : Running s e started failed) (hs : e.suites s = none)
    (hstack : e'.stack = e.stack) {started' : List JSVal} {failed' : List Bool} :
    Running s e' started' failed' := by
  intro i inTest hmem
  rw [hstack] at hmem
  obtain ⟨-, -, suite, hsuite, -⟩ := h i inTest hmem
  rw [hs] at hsuite
  cases hsuite

/-- An assertion of another suite. -/
theorem Running.of_assert_ne {t : ObjId} {argv : List JSVal} (h : Running s e started failed)
    (hruns : e.scriptRuns = true) (hts : t ≠ s) (ho : e.op (.assert t argv) = some e') :
    Running s e' started failed := by
  dsimp only [op, assert] at ho
  cases hsuite : e.suites t with
  | none =>
      rw [hsuite] at ho
      cases ho
      exact h.of_eq rfl rfl (.inl rfl)
  | some suite =>
      rw [hsuite] at ho
      obtain rfl := Option.some.inj ho
      cases jsunitAssert suite argv with
      | returned suite' r =>
          refine h.of_eq ?_ (by rw [settle_stack]; rfl) (.inl (by rw [settle_stack]; rfl))
          rw [settle_suites, setSuite_ne _ _ (Ne.symm hts)]
      | nullWrite => exact h.push hruns rfl rfl rfl
      | nullRead => exact h.push hruns rfl rfl rfl

/-- A run of the suite is in a test function while a script runs, and its case is the
current one. -/
theorem Running.current {suite : JSUnitSuite} {i : ℕ} {inTest : Bool}
    (h : Running s e started failed) (hruns : e.scriptRuns = true)
    (hsuite : e.suites s = some suite) (hmem : (i, inTest) ∈ runsOf s e.stack) :
    inTest = true ∧ suite.test = some i := by
  obtain ⟨-, hbetween, suite₁, hsuite₁, htrav⟩ := h i inTest hmem
  obtain rfl := Option.some.inj (hsuite.symm.trans hsuite₁)
  cases inTest with
  | false => exact absurd (hbetween rfl) (scriptRuns_between hruns i)
  | true => exact ⟨rfl, htrav.current rfl⟩

/-- **An assertion of the suite**: one that fails is recorded in the case that is running,
one that passes changes nothing. -/
theorem running_assert {argv : List JSVal} (h : Running s e rec.started rec.failed)
    (hruns : e.scriptRuns = true) (ho : e.op (.assert s argv) = some e') :
    Running s e' (noteTests s e (.op (.assert s argv)) rec).started
      (noteTests s e (.op (.assert s argv)) rec).failed := by
  have hrec : noteTests s e (.op (.assert s argv)) rec =
      if assertFails argv = true then rec.markFailed else rec := by simp [noteTests]
  rw [hrec]
  dsimp only [op, assert] at ho
  cases hsuite : e.suites s with
  | none =>
      rw [hsuite] at ho
      cases ho
      exact h.of_none hsuite rfl
  | some suite =>
      rw [hsuite] at ho
      obtain rfl := Option.some.inj ho
      cases hexit : jsunitAssert suite argv with
      | nullWrite =>
          obtain ⟨-, hnone⟩ := jsunitAssert_nullWrite hexit
          intro i inTest hmem
          have hsome := (h.current hruns hsuite hmem).2
          rw [hnone] at hsome
          cases hsome
      | nullRead =>
          rw [jsunitAssert_nullRead hexit, if_neg Bool.false_ne_true]
          exact h.push hruns rfl rfl rfl
      | returned suite' r =>
          have hstore : (((e.setSuite s suite').settle r).suites s) = some suite' := by
            rw [settle_suites, setSuite_self]
          refine h.of_suite hsuite hstore (by rw [settle_stack]; rfl) fun i inTest hmem htrav => ?_
          obtain ⟨rfl, htest⟩ := h.current hruns hsuite hmem
          cases hf : assertFails argv with
          | true =>
              obtain ⟨j, hj, rfl⟩ := (jsunitAssert_returned hexit).2 hf
              obtain rfl : j = i := Option.some.inj (hj.symm.trans htest)
              rw [if_pos rfl]
              exact htrav.fail
          | false =>
              obtain rfl := jsunitAssert_passed hexit hf
              rw [if_neg Bool.false_ne_true]
              exact htrav

/-- `add` goes to the end of the list. -/
theorem running_add {t : ObjId} {argv : List JSVal} {mem : Bool}
    (h : Running s e started failed) (ho : e.op (.add t argv mem) = some e') :
    Running s e' started failed := by
  dsimp only [op] at ho
  cases hsuite : e.suites t with
  | none =>
      rw [hsuite] at ho
      cases ho
      exact h.of_eq rfl rfl (.inl rfl)
  | some suite =>
      rw [hsuite] at ho
      cases ho
      by_cases hts : t = s
      · subst hts
        have hstore : (((e.setSuite t (jsunitAdd suite argv mem).1).settle
            (jsunitAdd suite argv mem).2).suites t) = some (jsunitAdd suite argv mem).1 := by
          rw [settle_suites, setSuite_self]
        exact h.of_suite hsuite hstore (by rw [settle_stack]; rfl) fun i inTest _ htrav =>
          htrav.add
      · refine h.of_eq ?_ (by rw [settle_stack]; rfl) (.inl (by rw [settle_stack]; rfl))
        rw [settle_suites, setSuite_ne _ _ (Ne.symm hts)]

/-- `run` begins with the first case. -/
theorem running_run {t : ObjId} (h : Running s e rec.started rec.failed)
    (hruns : e.scriptRuns = true) (hg : RunsOnce s (e, rec) (.op (.run t)))
    (ho : e.op (.run t) = some e') :
    Running s e' (noteTests s e (.op (.run t)) rec).started
      (noteTests s e (.op (.run t)) rec).failed := by
  dsimp only [op] at ho
  by_cases hts : t = s
  · subst hts
    rw [noteTests, if_pos rfl]
    cases hsuite : e.suites t with
    | none =>
        rw [hsuite] at ho
        cases ho
        exact h.of_none hsuite rfl
    | some suite =>
        rw [hsuite] at ho
        cases ho
        refine Running.of_only (hg rfl) rfl hsuite ⟨rfl, rfl, Nat.zero_le _, ?_, ?_⟩
        · rintro ⟨⟩
        · intro j hj
          cases hj
  · rw [noteTests, if_neg hts]
    cases hsuite : e.suites t with
    | none =>
        rw [hsuite] at ho
        cases ho
        exact h.of_eq rfl rfl (.inl rfl)
    | some suite =>
        rw [hsuite] at ho
        cases ho
        exact h.push hruns (runsOf_run_ne hts) rfl rfl

/-- What a running script does. -/
theorem running_op {o : ScriptOp} (h : Running s e rec.started rec.failed)
    (hruns : e.scriptRuns = true) (hg : RunsOnce s (e, rec) (.op o)) (ho : e.op o = some e') :
    Running s e' (noteTests s e (.op o) rec).started (noteTests s e (.op o) rec).failed := by
  have henter : ∀ caller newLock, Running s (e.enterScript caller newLock) rec.started rec.failed := by
    intro caller newLock
    unfold enterScript
    split_ifs
    · exact h.push hruns rfl rfl rfl
    · exact h.push hruns rfl rfl rfl
  cases o with
  | socket c =>
      obtain ⟨q, -, rfl⟩ := Option.map_eq_some_iff.1 ho
      exact h.of_eq (by rw [settle_suites]) (by rw [settle_stack]) (.inl (by rw [settle_stack]))
  | systemInclude found =>
      cases ho
      rcases found with _ | _ | _ | newLock
      · exact h.of_eq rfl rfl (.inl rfl)
      · exact h.of_eq rfl rfl (.inl rfl)
      · exact h.of_eq rfl rfl (.inl rfl)
      · exact henter .included newLock
  | execute newLock =>
      cases ho
      exact henter .native newLock
  | newJSUnit t mem =>
      dsimp only [op] at ho
      split_ifs at ho with hnew
      cases ho
      by_cases hts : t = s
      · -- the suite is not there yet, so it is not being run
        subst hts
        exact h.of_none hnew (by rfl)
      · exact h.of_eq (Function.update_of_ne (Ne.symm hts) ..) rfl (.inl rfl)
  | add t argv mem => exact running_add h ho
  | assert t argv =>
      by_cases hts : t = s
      · subst hts
        exact running_assert h hruns ho
      · rw [noteTests, if_neg fun hand => hts hand.1]
        exact h.of_assert_ne hruns hts ho
  | run t => exact running_run h hruns hg ho
  | events =>
      cases ho
      exact h.push hruns rfl rfl rfl
  | _ =>
      cases ho
      exact h.of_eq rfl rfl (.inl rfl)

/-- **The function of a test case is over**: a run of the suite goes on to the next case, and
has recorded the failure if there was one. -/
theorem running_ended (h : Running s e rec.started rec.failed) (hs : Step e .ended e') :
    Running s e' (noteTests s e .ended rec).started (noteTests s e .ended rec).failed := by
  unfold noteTests
  obtain ⟨caller, rest, hstack, hend⟩ | ⟨d, inv, rest, hstack, rfl⟩ |
    ⟨t, i, rest, suite, hstack, hsuite, rfl⟩ := step_ended hs
  · rw [hstack]
    obtain ⟨-, rfl⟩ | ⟨-, rfl⟩ := hend
    · cases caller <;> exact h.of_top hstack (by rintro i ⟨⟩) rfl rfl
    · exact h.of_top hstack (by rintro i ⟨⟩) rfl rfl
  · rw [hstack]
    exact h.of_top hstack (by rintro i ⟨⟩) rfl rfl
  · rw [hstack]
    dsimp only
    by_cases hts : t = s
    · subst hts
      obtain ⟨hnone, htrav⟩ := h.innermost hstack hsuite
      refine Running.of_only hnone rfl (setSuite_self ..) ?_
      cases hfails : e.failing with
      | true =>
          rw [if_pos ⟨rfl, rfl⟩]
          exact htrav.returned false
      | false =>
          rw [if_neg fun hand => Bool.false_ne_true hand.2]
          exact htrav.returned true
    · rw [if_neg fun hand => hts hand.1]
      refine h.of_top hstack (by rintro j ⟨⟩) (setSuite_ne _ _ (Ne.symm hts)) ?_
      rw [runsOf_run_ne hts]
      exact runsOf_run_ne hts

/-- **The next test case**: its function starts, or the run is over. -/
theorem running_nextTest (h : Running s e rec.started rec.failed) (hs : Step e .nextTest e') :
    Running s e' (noteTests s e .nextTest rec).started (noteTests s e .nextTest rec).failed := by
  unfold noteTests
  obtain ⟨-, t, i, rest, suite, hstack, hsuite, hnext⟩ := step_nextTest hs
  have hfuncs : ∀ {t}, e.suites t = some suite → e.funcs t = suite.funcs := by
    intro t ht
    rw [funcs, ht]
  rw [hstack]
  dsimp only
  by_cases hts : t = s
  · subst hts
    obtain ⟨hnone, htrav⟩ := h.innermost hstack hsuite
    rw [hfuncs hsuite]
    obtain ⟨hi, rfl⟩ | ⟨hi, rfl⟩ := hnext
    · have hf : i < suite.funcs.length := by
        rw [JSUnitSuite.funcs, List.length_map]
        exact hi
      rw [List.getElem?_eq_getElem hf]
      dsimp only
      rw [if_pos rfl]
      refine Running.of_only hnone rfl (setSuite_self ..) ?_
      exact htrav.start (List.getElem?_eq_getElem hf)
    · -- the frame of the run is gone, and there is no other
      intro j inTest hj
      rw [settle_stack, hnone] at hj
      cases hj
  · have hsame : ∀ e', e'.suites s = e.suites s → runsOf s e'.stack = runsOf s rest →
        Running s e' rec.started rec.failed := by
      intro e' hsuites hruns
      refine h.of_top hstack ?_ hsuites (by rw [hruns, runsOf_run_ne hts])
      rintro j ⟨⟩
      exact hts rfl
    have hrec : ∀ f : Option JSVal, (match f with
        | some f =>
            if t = s then
              { rec with started := rec.started ++ [f], failed := rec.failed ++ [false] }
            else rec
        | none => rec) = rec := by
      rintro (_ | f)
      · rfl
      · exact if_neg hts
    obtain ⟨-, rfl⟩ | ⟨-, rfl⟩ := hnext
    · rw [hrec]
      exact hsame _ (setSuite_ne _ _ (Ne.symm hts)) (runsOf_run_ne hts)
    · rw [hrec]
      exact hsame _ (by rw [settle_suites]) (by rw [settle_stack])

/-- **Every step keeps the suite and the record in step.** -/
theorem step_inStep (h : InStep s e rec) (hg : RunsOnce s (e, rec) l) (hs : Step e l e') :
    InStep s e' (noteRun s e l e' rec) where
  added := by
    rw [step_funcs hs]
    unfold noteRun
    cases e.adds l with
    | none => exact h.added
    | some q =>
        obtain ⟨t, n, f⟩ := q
        dsimp only
        by_cases hts : t = s
        · subst hts
          rw [Function.update_self, if_pos rfl, h.added]
        · rw [Function.update_of_ne (Ne.symm hts), if_neg hts]
          exact h.added
  running := by
    show Running s e' (noteTests s e l rec).started (noteTests s e l rec).failed
    cases l with
    | process file =>
        obtain ⟨hstack, rfl⟩ := step_process hs
        have hnone : ∀ i, e.stack.head? ≠ some (.run s i false) := by
          rw [hstack]
          rintro i ⟨⟩
        rcases file with _ | _ | newLock
        · exact h.running.of_eq rfl rfl (.inl rfl)
        · exact h.running.of_eq rfl rfl (.inl rfl)
        · refine h.running.of_eq ?_ ?_ (.inr hnone)
          · exact congrFun (enterScript_suites ..) s
          · show runsOf s (e.enterScript .toplevel newLock).stack = _
            unfold enterScript
            split_ifs <;> rfl
    | op o => exact running_op h.running (step_op hs).1 hg (step_op hs).2
    | caught =>
        obtain ⟨-, -, rfl⟩ := step_caught hs
        exact h.running.of_eq rfl rfl (.inl rfl)
    | ended => exact running_ended h.running hs
    | handleSelect a =>
        obtain ⟨-, loop, rest, hstack, hloop, hpass⟩ := step_handleSelect hs
        have hframe : ∀ i, loop ≠ .run s i false := by
          rintro i rfl
          cases hloop
        have hruns : runsOf s (loop :: rest) = runsOf s rest := by
          cases loop with
          | run t i inTest => cases hloop
          | _ => rfl
        obtain ⟨-, rfl⟩ | ⟨reg, pending, -, rfl⟩ := hpass
        · exact h.running.of_top hstack hframe rfl hruns.symm
        · exact h.running.of_top hstack hframe rfl rfl
    | dispatch r =>
        obtain ⟨-, d, pending, rest, p, exit, hstack, -, -, rfl⟩ := step_dispatch hs
        refine h.running.of_top hstack (by rintro i ⟨⟩) ?_ ?_
        · rw [callback_suites]
        · rw [callback_stack]
          cases exit <;> rfl
    | passed =>
        obtain ⟨-, rest, hstack, rfl⟩ := step_passed hs
        exact h.running.of_top hstack (by rintro i ⟨⟩) rfl rfl
    | nextTest => exact running_nextTest h.running hs
    | finalise o =>
        obtain ⟨-, rfl⟩ := step_finalise hs
        exact h.running.of_eq rfl rfl (.inl rfl)

end

end Engine

end ProntoScript
