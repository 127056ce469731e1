/-
# Failed assertions and the verdict of a suite

`JSUnit_Assert` (`js/src/ext/jsunit.c`, lines 409-415) records a comparison that fails in
the test case that `suite->test` points at.  The pointer is `NULL` until `run` starts the
first test case and is never reset: an assertion made before writes through it, and one
made after `run` has computed its verdict is recorded where nobody looks any more.  A
case that is started again starts with a passed result.

`Engine.noteAssert` keeps the failed assertions that have made nothing fail yet, and
`Engine.asserts_heard` says when there are none left at the end.
-/

import ProntoScript.System.Engine

namespace ProntoScript

open Transition (Run Guarded Obeying Recorded)

/-- The comparison of an assertion fails. -/
def assertFails (argv : List JSVal) : Bool :=
  match argv with
  | expected :: actual :: _ => assertCompare expected actual == some false
  | _ => false

section

variable {suite : JSUnitSuite} {i : ℕ} {argv : List JSVal}

/-- The test case a suite points at is one of its own. -/
def JSUnitSuite.InRange (suite : JSUnitSuite) : Prop :=
  ∀ i, suite.test = some i → i < suite.cases.length

/-- The new suite remembers every failure of the old one. -/
structure JSUnitSuite.Remembers (suite suite' : JSUnitSuite) : Prop where
  failed : ∀ i, suite.HasFailed i → suite'.HasFailed i
  test : suite'.test = suite.test
  length : suite.cases.length ≤ suite'.cases.length

/-- A failure is remembered when another one is recorded. -/
theorem remembers_setResult : suite.Remembers (suite.setResult i .fail) where
  failed j h := by
    rw [hasFailed_setResult]
    split_ifs
    · obtain ⟨c, hc, -⟩ := h
      exact ⟨(List.getElem?_eq_some_iff.1 hc).1, rfl⟩
    · exact h
  test := setResult_test
  length := Nat.le_of_eq setResult_length.symm

/-- Nothing is forgotten where nothing happens. -/
theorem remembers_refl : suite.Remembers suite := ⟨fun _ h => h, rfl, le_rfl⟩

/-- The end of a case forgets no failure. -/
theorem remembers_endCase {ok : Bool} : suite.Remembers (suite.endCase i ok) := by
  unfold JSUnitSuite.endCase
  split_ifs
  · exact remembers_refl
  · exact remembers_setResult

/-- A case that is added does not make one forget the others. -/
theorem remembers_jsunitAdd {mem : Bool} : suite.Remembers (jsunitAdd suite argv mem).1 := by
  unfold jsunitAdd
  split
  · exact remembers_refl
  · split_ifs
    · refine ⟨?_, rfl, by simp⟩
      rintro j ⟨c, hc, hres⟩
      exact ⟨c, (List.getElem?_append_left (List.getElem?_eq_some_iff.1 hc).1).trans hc, hres⟩
    · exact remembers_refl

/-- An assertion that returns remembers the failures, and adds its own. -/
theorem jsunitAssert_returned {suite' : JSUnitSuite} {r : JSUnitReturn}
    (h : jsunitAssert suite argv = .returned suite' r) :
    suite.Remembers suite' ∧
      (assertFails argv = true → ∃ i, suite.test = some i ∧ suite' = suite.setResult i .fail) := by
  rcases argv with _ | ⟨expected, _ | ⟨actual, rest⟩⟩
  · cases h
    exact ⟨remembers_refl, fun hf => by cases hf⟩
  · cases h
    exact ⟨remembers_refl, fun hf => by cases hf⟩
  · unfold jsunitAssert at h
    unfold assertFails
    dsimp only at h ⊢
    rcases hcmp : assertCompare expected actual with _ | (_ | _) <;> rw [hcmp] at h
    · cases h
    · cases htest : suite.test with
      | none =>
          rw [htest] at h
          cases h
      | some j =>
          rw [htest] at h
          cases h
          exact ⟨remembers_setResult, fun _ => ⟨j, rfl, rfl⟩⟩
    · cases h
      exact ⟨remembers_refl, fun hf => by cases hf⟩

/-- A null write is an assertion that fails before any test case was started. -/
theorem jsunitAssert_nullWrite (h : jsunitAssert suite argv = .nullWrite) :
    assertFails argv = true ∧ suite.test = none := by
  rcases argv with _ | ⟨expected, _ | ⟨actual, rest⟩⟩
  · cases h
  · cases h
  · unfold jsunitAssert at h
    unfold assertFails
    dsimp only at h ⊢
    rcases hcmp : assertCompare expected actual with _ | (_ | _) <;> rw [hcmp] at h
    · cases h
    · cases htest : suite.test with
      | none => exact ⟨rfl, rfl⟩
      | some j =>
          rw [htest] at h
          cases h
    · cases h

/-- A null read is no comparison that fails. -/
theorem jsunitAssert_nullRead (h : jsunitAssert suite argv = .nullRead) :
    assertFails argv = false := by
  rcases argv with _ | ⟨expected, _ | ⟨actual, rest⟩⟩
  · rfl
  · rfl
  · unfold jsunitAssert at h
    unfold assertFails
    dsimp only at h ⊢
    rcases hcmp : assertCompare expected actual with _ | (_ | _) <;> rw [hcmp] at h
    · rfl
    · cases htest : suite.test <;> rw [htest] at h <;> cases h
    · rfl

end

/-- The suite of a `run`, and whether its test function is running. -/
def CallFrame.run? : CallFrame → Option (ObjId × Bool)
  | .run s _ inTest => some (s, inTest)
  | _ => none

/-- The suites that are being run. -/
def runs (stack : List CallFrame) : List (ObjId × Bool) := stack.filterMap CallFrame.run?

namespace Engine

/-- The failed assertions, with suite and test case, that have made nothing fail yet: the
failing verdict of a suite discharges those of the suite, and the failure of the script
with an exit code other than 0 discharges all. -/
def noteAssert (e : Engine) (l : EngineLabel) (e' : Engine) (owed : List (ObjId × ℕ)) :
    List (ObjId × ℕ) :=
  match l with
  | .op (.assert s argv) =>
      match (e.suites s).bind JSUnitSuite.test with
      | some i => if assertFails argv then (s, i) :: owed else owed
      | none => owed
  | .nextTest =>
      match e.stack with
      | .run s _ _ :: _ => if e'.failing then owed.filter fun q => q.1 != s else owed
      | _ => owed
  | .ended =>
      match e.stack with
      | .script .toplevel :: _ => if e.failing && e'.exitCode != 0 then [] else owed
      | _ => owed
  | _ => owed

/-- The step is an assertion that writes through a null pointer. -/
def writesNull (e : Engine) : EngineLabel → Bool
  | .op (.assert s argv) =>
      match e.suites s with
      | some suite => match jsunitAssert suite argv with
        | .nullWrite => true
        | _ => false
      | none => false
  | _ => false

/-- No assertion writes through a null pointer, and when no script is running any more
every failed one has made something fail. -/
def AssertsHeard (s : Engine × List (ObjId × ℕ)) (l : EngineLabel)
    (t : Engine × List (ObjId × ℕ)) : Prop :=
  s.1.writesNull l = false ∧ (t.1.stack = [] → t.2 = [])

/-- An assertion that fails is made while a test function of its suite is running, and
`run` starts no test case that an assertion has failed for. -/
def AssertsInTests (s : Engine × List (ObjId × ℕ)) : EngineLabel → Prop
  | .op (.assert suite argv) =>
      s.1.suites suite ≠ none → assertFails argv = true → (suite, true) ∈ runs s.1.stack
  | .nextTest =>
      match s.1.stack with
      | .run suite i _ :: _ => (suite, i) ∉ s.2
      | _ => True
  | _ => True

/-- A failed assertion that has made nothing fail yet is recorded in a test case of a
suite that is being run. -/
structure Accounted (e : Engine) (owed : List (ObjId × ℕ)) : Prop where
  inRange : ∀ s suite, e.suites s = some suite → suite.InRange
  started : ∀ s, (s, true) ∈ runs e.stack → ∃ suite i, e.suites s = some suite ∧ suite.test = some i
  failed : ∀ s i, (s, i) ∈ owed → ∃ suite, e.suites s = some suite ∧ suite.HasFailed i
  running : ∀ s i, (s, i) ∈ owed → ∃ inTest, (s, inTest) ∈ runs e.stack

section

variable {e e' : Engine} {owed owed' : List (ObjId × ℕ)} {l : EngineLabel}

namespace Accounted

/-- Steps that leave the suites and the runs alone. -/
theorem of_eq (h : Accounted e owed) (hs : e'.suites = e.suites)
    (hr : runs e'.stack = runs e.stack) : Accounted e' owed where
  inRange := hs ▸ h.inRange
  started := hs ▸ hr ▸ h.started
  failed := hs ▸ h.failed
  running := hr ▸ h.running

/-- A `js_Execute` begins. -/
theorem enterScript (h : Accounted e owed) {caller : ExecuteCaller} {newLock : Bool} :
    Accounted (e.enterScript caller newLock) owed := by
  refine h.of_eq (enterScript_suites ..) ?_
  unfold Engine.enterScript
  split_ifs <;> rfl

/-- Nothing is owed where nothing is run. -/
theorem nil_of_runs (h : Accounted e owed) (hr : runs e.stack = []) : owed = [] := by
  cases owed with
  | nil => rfl
  | cons q owed =>
      obtain ⟨inTest, hmem⟩ := h.running q.1 q.2 (List.mem_cons_self ..)
      rw [hr] at hmem
      cases hmem

/-- Fewer assertions. -/
theorem subset (h : Accounted e owed) (hsub : owed' ⊆ owed) : Accounted e owed' where
  inRange := h.inRange
  started := h.started
  failed s i hq := h.failed s i (hsub hq)
  running s i hq := h.running s i (hsub hq)

/-- A suite is stored that remembers the failures. -/
theorem setSuite (h : Accounted e owed) {s : ObjId} {suite suite' : JSUnitSuite}
    (hs : e.suites s = some suite) (hrem : suite.Remembers suite') :
    Accounted (e.setSuite s suite') owed where
  inRange t suite₁ ht := by
    by_cases hts : t = s
    · subst hts
      rw [setSuite_self] at ht
      cases ht
      intro i hi
      rw [hrem.test] at hi
      exact Nat.lt_of_lt_of_le (h.inRange _ _ hs i hi) hrem.length
    · rw [setSuite_ne e suite' hts] at ht
      exact h.inRange t suite₁ ht
  started t ht := by
    obtain ⟨suite₁, i, hsuite, htest⟩ := h.started t ht
    by_cases hts : t = s
    · subst hts
      obtain rfl := Option.some.inj (hs.symm.trans hsuite)
      exact ⟨suite', i, setSuite_self .., hrem.test.trans htest⟩
    · exact ⟨suite₁, i, (setSuite_ne e suite' hts).trans hsuite, htest⟩
  failed t i ht := by
    obtain ⟨suite₁, hsuite, hfail⟩ := h.failed t i ht
    by_cases hts : t = s
    · subst hts
      obtain rfl := Option.some.inj (hs.symm.trans hsuite)
      exact ⟨suite', setSuite_self .., hrem.failed i hfail⟩
    · exact ⟨suite₁, (setSuite_ne e suite' hts).trans hsuite, hfail⟩
  running := h.running

end Accounted

/-- An assertion in a test function is accounted for, and never writes through a null
pointer. -/
theorem accounted_assert {s : ObjId} {argv : List JSVal} {suite : JSUnitSuite}
    (h : Accounted e owed) (hsuite : e.suites s = some suite)
    (hg : assertFails argv = true → (s, true) ∈ runs e.stack) :
    e.writesNull (.op (.assert s argv)) = false ∧
      Accounted (e.assert s suite argv)
        (noteAssert e (.op (.assert s argv)) (e.assert s suite argv) owed) := by
  have hstarted : assertFails argv = true → ∃ i, suite.test = some i := by
    intro hf
    obtain ⟨suite₁, i, hs, hi⟩ := h.started s (hg hf)
    obtain rfl := Option.some.inj (hsuite.symm.trans hs)
    exact ⟨i, hi⟩
  unfold writesNull noteAssert
  simp only [hsuite, Option.bind_some]
  unfold assert
  cases hexit : jsunitAssert suite argv with
  | nullWrite =>
      obtain ⟨hf, hnone⟩ := jsunitAssert_nullWrite hexit
      obtain ⟨i, hi⟩ := hstarted hf
      rw [hnone] at hi
      cases hi
  | nullRead =>
      have hf := jsunitAssert_nullRead hexit
      refine ⟨rfl, ?_⟩
      rw [hf]
      have hsame : Accounted { e with stack := .undefined :: e.stack } owed := h.of_eq rfl rfl
      cases suite.test <;> exact hsame
  | returned suite' r =>
      obtain ⟨hrem, hfail⟩ := jsunitAssert_returned hexit
      have hstore : Accounted ((e.setSuite s suite').settle r) owed :=
        (h.setSuite hsuite hrem).of_eq (settle_suites ..) (by rw [settle_stack])
      refine ⟨rfl, ?_⟩
      cases hf : assertFails argv with
      | false => cases suite.test <;> exact hstore
      | true =>
          -- the new failure is recorded in the case that is running
          obtain ⟨i, hi, rfl⟩ := hfail hf
          simp only [hi, if_true]
          refine ⟨hstore.inRange, hstore.started, ?_, ?_⟩
          · intro t j hmem
            rcases List.mem_cons.1 hmem with hnew | hold
            · cases hnew
              refine ⟨suite.setResult i .fail, by rw [settle_suites, setSuite_self], ?_⟩
              rw [hasFailed_setResult, if_pos rfl]
              exact ⟨h.inRange s suite hsuite i hi, rfl⟩
            · exact hstore.failed t j hold
          · intro t j hmem
            rcases List.mem_cons.1 hmem with hnew | hold
            · cases hnew
              exact ⟨true, by rw [settle_stack]; exact hg hf⟩
            · exact hstore.running t j hold

/-- What a running script does is accounted for, but for assertions as above. -/
theorem accounted_op {o : ScriptOp} (h : Accounted e owed) (ho : e.op o = some e')
    (hno : ∀ s argv, o ≠ .assert s argv) : Accounted e' owed := by
  cases o with
  | assert s argv => exact absurd rfl (hno s argv)
  | socket c =>
      obtain ⟨q, -, rfl⟩ := Option.map_eq_some_iff.1 ho
      exact h.of_eq (settle_suites ..) (by rw [settle_stack])
  | systemInclude found =>
      cases ho
      rcases found with _ | _ | _ | newLock
      · exact h.of_eq rfl rfl
      · exact h.of_eq rfl rfl
      · exact h.of_eq rfl rfl
      · exact h.enterScript
  | execute newLock =>
      cases ho
      exact h.enterScript
  | newJSUnit s mem =>
      dsimp only [op] at ho
      split_ifs at ho with hnew
      cases ho
      have hother : ∀ {t suite}, e.suites t = some suite → t ≠ s := by
        rintro t suite ht rfl
        rw [hnew] at ht
        cases ht
      refine ⟨?_, ?_, ?_, h.running⟩
      · intro t suite ht
        dsimp only at ht
        by_cases hts : t = s
        · subst hts
          rw [Function.update_self] at ht
          cases mem <;> cases ht
          intro i hi
          cases hi
        · rw [Function.update_of_ne hts] at ht
          exact h.inRange t suite ht
      · intro t ht
        obtain ⟨suite, i, hsuite, hi⟩ := h.started t ht
        exact ⟨suite, i, (Function.update_of_ne (hother hsuite) ..).trans hsuite, hi⟩
      · intro t i ht
        obtain ⟨suite, hsuite, hfail⟩ := h.failed t i ht
        exact ⟨suite, (Function.update_of_ne (hother hsuite) ..).trans hsuite, hfail⟩
  | add s argv mem =>
      dsimp only [op] at ho
      split at ho
      · cases ho
        exact h.of_eq rfl rfl
      · rename_i suite hs
        cases ho
        exact (h.setSuite hs remembers_jsunitAdd).of_eq (settle_suites ..) (by rw [settle_stack])
  | run s =>
      dsimp only [op] at ho
      split at ho
      · cases ho
        exact h.of_eq rfl rfl
      · cases ho
        refine ⟨h.inRange, ?_, h.failed, ?_⟩
        · intro t ht
          rcases List.mem_cons.1 ht with hnew | hold
          · cases hnew
          · exact h.started t hold
        · intro t i ht
          obtain ⟨inTest, hmem⟩ := h.running t i ht
          exact ⟨inTest, List.mem_cons_of_mem _ hmem⟩
  | _ =>
      cases ho
      exact h.of_eq rfl rfl

/-- A test case starts: its result is the only one that is forgotten. -/
theorem accounted_startCase {s : ObjId} {i : ℕ} {rest : List CallFrame} {suite : JSUnitSuite}
    (h : Accounted e owed) (hstack : e.stack = .run s i false :: rest)
    (hsuite : e.suites s = some suite) (hi : i < suite.cases.length) (hg : (s, i) ∉ owed) :
    Accounted (Engine.setSuite { e with stack := .run s i true :: rest } s (suite.startCase i))
      owed := by
  have hruns : runs e.stack = (s, false) :: runs rest := by rw [hstack]; rfl
  refine ⟨?_, ?_, ?_, ?_⟩
  · intro t suite₁ ht
    by_cases hts : t = s
    · subst hts
      rw [setSuite_self] at ht
      cases ht
      intro j hj
      obtain rfl : i = j := Option.some.inj hj
      rw [JSUnitSuite.startCase, setResult_length]
      exact hi
    · rw [setSuite_ne _ _ hts] at ht
      exact h.inRange t suite₁ ht
  · intro t ht
    by_cases hts : t = s
    · subst hts
      exact ⟨_, i, setSuite_self .., rfl⟩
    · have hrest : (t, true) ∈ runs rest := by
        rcases List.mem_cons.1 ht with hnew | hold
        · cases hnew
          exact absurd rfl hts
        · exact hold
      have hold : (t, true) ∈ runs e.stack := by
        rw [hruns]
        exact List.mem_cons_of_mem _ hrest
      obtain ⟨suite₁, j, hs, hj⟩ := h.started t hold
      exact ⟨suite₁, j, (setSuite_ne _ _ hts).trans hs, hj⟩
  · intro t j hmem
    obtain ⟨suite₁, hs, hfail⟩ := h.failed t j hmem
    by_cases hts : t = s
    · subst hts
      obtain rfl := Option.some.inj (hsuite.symm.trans hs)
      refine ⟨_, setSuite_self .., ?_⟩
      have hij : i ≠ j := by
        rintro rfl
        exact hg hmem
      rw [JSUnitSuite.startCase, hasFailed_setResult, if_neg hij]
      exact hfail
    · exact ⟨suite₁, (setSuite_ne _ _ hts).trans hs, hfail⟩
  · intro t j hmem
    obtain ⟨inTest, hold⟩ := h.running t j hmem
    rw [hruns] at hold
    rcases List.mem_cons.1 hold with hnew | hrest
    · cases hnew
      exact ⟨true, List.mem_cons_self ..⟩
    · exact ⟨inTest, List.mem_cons_of_mem _ hrest⟩

/-- The verdict: it fails if there is a failed assertion of the suite. -/
theorem accounted_verdict {s : ObjId} {i : ℕ} {rest : List CallFrame} {suite : JSUnitSuite}
    (h : Accounted e owed) (hstack : e.stack = .run s i false :: rest)
    (hsuite : e.suites s = some suite) :
    Accounted (Engine.settle { e with stack := rest } suite.verdict)
      (noteAssert e .nextTest (Engine.settle { e with stack := rest } suite.verdict) owed) := by
  have hruns : runs e.stack = (s, false) :: runs rest := by rw [hstack]; rfl
  -- what is left of the assertions is not of this suite
  have hrest : ∀ owed', owed' ⊆ owed → (∀ j, (s, j) ∉ owed') →
      Accounted (Engine.settle { e with stack := rest } suite.verdict) owed' := by
    intro owed' hsub hno
    refine ⟨?_, ?_, ?_, ?_⟩
    · rw [settle_suites]
      exact h.inRange
    · rw [settle_suites, settle_stack]
      intro t ht
      refine h.started t ?_
      rw [hruns]
      exact List.mem_cons_of_mem _ ht
    · rw [settle_suites]
      exact fun t j hmem => h.failed t j (hsub hmem)
    · rw [settle_stack]
      intro t j hmem
      obtain ⟨inTest, hold⟩ := h.running t j (hsub hmem)
      rw [hruns] at hold
      rcases List.mem_cons.1 hold with hnew | hold
      · cases hnew
        exact absurd hmem (hno j)
      · exact ⟨inTest, hold⟩
  unfold noteAssert
  rw [hstack]
  dsimp only
  split_ifs with hfails
  · refine hrest _ List.filter_sublist.subset fun j hmem => ?_
    have := (List.mem_filter.1 hmem).2
    simp at this
  · refine hrest _ (List.Subset.refl _) fun j hmem => ?_
    obtain ⟨suite₁, hs, hfail⟩ := h.failed s j hmem
    obtain rfl := Option.some.inj (hsuite.symm.trans hs)
    rw [verdict_of_hasFailed hfail] at hfails
    exact hfails rfl

/-- The end of a script, a handler or a test function. -/
theorem accounted_ended (h : Accounted e owed) (hs : Step e .ended e') :
    Accounted e' (noteAssert e .ended e' owed) := by
  unfold noteAssert
  obtain ⟨caller, rest, hstack, hend⟩ | ⟨d, inv, rest, hstack, rfl⟩ |
    ⟨s, i, rest, suite, hstack, hsuite, rfl⟩ := step_ended hs
  · have hsame : Accounted e' owed := by
      obtain ⟨-, rfl⟩ | ⟨-, rfl⟩ := hend
      · cases caller <;> exact h.of_eq rfl (by rw [hstack]; rfl)
      · exact h.of_eq rfl (by rw [hstack]; rfl)
    rw [hstack]
    cases caller with
    | toplevel =>
        dsimp only
        split_ifs
        · exact hsame.subset (List.nil_subset _)
        · exact hsame
    | included => exact hsame
    | native => exact hsame
  · rw [hstack]
    exact h.of_eq rfl (by rw [hstack]; rfl)
  · rw [hstack]
    have hruns : runs e.stack = (s, true) :: runs rest := by rw [hstack]; rfl
    have hbetween : Accounted
        { e with stack := .run s (i + 1) false :: rest, failing := false } owed := by
      refine ⟨h.inRange, ?_, h.failed, ?_⟩
      · intro t ht
        refine h.started t ?_
        rcases List.mem_cons.1 ht with hnew | hold
        · cases hnew
        · rw [hruns]
          exact List.mem_cons_of_mem _ hold
      · intro t j hmem
        obtain ⟨inTest, hold⟩ := h.running t j hmem
        rw [hruns] at hold
        rcases List.mem_cons.1 hold with hnew | hrest
        · cases hnew
          exact ⟨false, List.mem_cons_self ..⟩
        · exact ⟨inTest, List.mem_cons_of_mem _ hrest⟩
    exact hbetween.setSuite hsuite remembers_endCase

/-- The next test case, or the verdict. -/
theorem accounted_nextTest (h : Accounted e owed) (hg : AssertsInTests (e, owed) .nextTest)
    (hs : Step e .nextTest e') : Accounted e' (noteAssert e .nextTest e' owed) := by
  obtain ⟨hf, s, i, rest, suite, hstack, hsuite, ⟨hi, rfl⟩ | ⟨-, rfl⟩⟩ := step_nextTest hs
  · have hno : (s, i) ∉ owed := by
      unfold AssertsInTests at hg
      rw [hstack] at hg
      exact hg
    have hsame := accounted_startCase h hstack hsuite hi hno
    unfold noteAssert
    rw [hstack]
    show Accounted _ (if e.failing = true then _ else owed)
    rw [if_neg (Bool.eq_false_iff.1 hf)]
    exact hsame
  · exact accounted_verdict h hstack hsuite

/-- **Every step accounts for the failed assertions.** -/
theorem step_accounted (h : Accounted e owed) (hg : AssertsInTests (e, owed) l)
    (hs : Step e l e') :
    e.writesNull l = false ∧ Accounted e' (noteAssert e l e' owed) := by
  cases l with
  | process file =>
      obtain ⟨-, rfl⟩ := step_process hs
      refine ⟨rfl, ?_⟩
      rcases file with _ | _ | newLock
      · exact h.of_eq rfl rfl
      · exact h.of_eq rfl rfl
      · exact h.enterScript
  | op o =>
      obtain ⟨-, ho⟩ := step_op hs
      cases o with
      | assert s argv =>
          cases hsuite : e.suites s with
          | none =>
              dsimp only [op] at ho
              rw [hsuite] at ho
              cases ho
              simp only [writesNull, noteAssert, hsuite, Option.bind_none]
              exact ⟨trivial, h.of_eq rfl rfl⟩
          | some suite =>
              dsimp only [op] at ho
              rw [hsuite] at ho
              cases ho
              refine accounted_assert h hsuite (hg ?_)
              rw [hsuite]
              exact Option.some_ne_none _
      | _ => exact ⟨rfl, accounted_op h ho (by rintro s argv ⟨⟩)⟩
  | caught =>
      obtain ⟨-, -, rfl⟩ := step_caught hs
      exact ⟨rfl, h.of_eq rfl rfl⟩
  | ended => exact ⟨rfl, accounted_ended h hs⟩
  | handleSelect a =>
      refine ⟨rfl, ?_⟩
      obtain ⟨-, loop, rest, hstack, hloop, ⟨-, rfl⟩ | ⟨reg, pending, -, rfl⟩⟩ :=
        step_handleSelect hs
      · refine h.of_eq rfl ?_
        rw [hstack]
        cases loop with
        | draining caller => rfl
        | events => rfl
        | _ => cases hloop
      · refine h.of_eq rfl ?_
        rw [hstack]
        rfl
  | dispatch r =>
      refine ⟨rfl, ?_⟩
      obtain ⟨-, d, pending, rest, p, exit, hstack, -, -, rfl⟩ := step_dispatch hs
      refine h.of_eq ?_ ?_
      · rcases callback_cases _ exit with hc | hc | hc <;> rw [hc] <;> rfl
      · rw [callback_stack, hstack]
        cases exit <;> rfl
  | passed =>
      obtain ⟨-, rest, hstack, rfl⟩ := step_passed hs
      exact ⟨rfl, h.of_eq rfl (by rw [hstack]; rfl)⟩
  | nextTest => exact ⟨rfl, accounted_nextTest h hg hs⟩
  | finalise o =>
      obtain ⟨-, rfl⟩ := step_finalise hs
      exact ⟨rfl, h.of_eq rfl rfl⟩

/-- **Failed assertions are heard.**  In a run in which the assertions that fail are made
while a test function of their suite is running, and `run` starts no test case that one
has failed for, none writes through a null pointer, and each makes the verdict of its
suite fail.  Source: `JSUnit_Assert` (lines 409-415) writes the result through
`suite->test`, which is NULL before the first `run` and stays behind after it, and
`JSUnit_Run` (lines 479-548) of `js/src/ext/jsunit.c`. -/
theorem asserts_heard {ls : List EngineLabel}
    (hrun : Run (Guarded AssertsInTests (Recorded noteAssert Step)) (start, []) ls (e, owed)) :
    Run (Obeying AssertsHeard (Recorded noteAssert Step)) (start, []) ls (e, owed) := by
  refine hrun.obeying (R := AssertsHeard) (I := fun s => Accounted s.1 s.2) ?_ ?_
  · rintro ⟨e, owed⟩ l ⟨e', owed'⟩ h hg ⟨hs, ho⟩
    obtain rfl : owed' = noteAssert e l e' owed := ho
    obtain ⟨hnull, hacc⟩ := step_accounted h hg hs
    refine ⟨⟨hnull, fun hstack => hacc.nil_of_runs ?_⟩, hacc⟩
    rw [show e'.stack = [] from hstack]
    rfl
  · exact ⟨fun s suite hs => (by cases hs), fun s hs => (by cases hs), fun s i hs => (by cases hs),
      fun s i hs => (by cases hs)⟩

/-- A test function whose assertion fails makes `run` fail, and the script with it. -/
theorem asserts_heard_in_test : ∃ e : Engine, e.stack = [] ∧ e.exitCode ≠ 0 ∧
    ∃ ls owed, Run (Obeying AssertsHeard (Recorded noteAssert Step)) (start, []) ls (e, owed) := by
  have hrun : ∃ e : Engine, e.stack = [] ∧ e.exitCode ≠ 0 ∧
      Run (Guarded AssertsInTests (Recorded noteAssert Step)) (start, [])
        [.process (.compiles true), .op (.newJSUnit 0 true), .op (.add 0 [.function 1] true),
          .op (.run 0), .nextTest, .op (.assert 0 [.int 1, .int 2]), .ended, .nextTest, .ended]
        (e, []) := by
    refine ⟨_, ?_, ?_, .recorded_cons trivial rfl <| .recorded_cons trivial rfl <|
      .recorded_cons trivial rfl <| .recorded_cons trivial rfl <|
      .recorded_cons (List.not_mem_nil) rfl <|
      .recorded_cons (fun _ _ => List.mem_cons_self ..) rfl <|
      .recorded_cons trivial rfl <| .recorded_cons ?_ rfl <| .recorded_cons trivial rfl <|
      .nil _⟩
    · rfl
    · show (3 : ℤ) ≠ 0
      decide
    · show (0, 1) ∉ [(0, 0)]
      decide
  obtain ⟨e, hstack, hcode, hrun⟩ := hrun
  exact ⟨e, hstack, hcode, _, _, asserts_heard hrun⟩

/-- An assertion before any test case has started. -/
theorem assert_before_run : ¬ ∀ ls s l t, Run (Recorded noteAssert Step) (start, []) ls s →
    Recorded noteAssert Step s l t → AssertsHeard s l t := by
  intro hclaim
  have hrun : ∃ s t, Run (Recorded noteAssert Step) (start, [])
      [.process (.compiles true), .op (.newJSUnit 0 true)] s ∧
      Recorded noteAssert Step s (.op (.assert 0 [.int 1, .int 2])) t ∧
      s.1.writesNull (.op (.assert 0 [.int 1, .int 2])) = true :=
    ⟨_, (_, _), Run.of_guarded (G := fun _ _ => True) <| .recorded_cons trivial rfl <|
      .recorded_cons trivial rfl <| .nil _, ⟨rfl, rfl⟩, rfl⟩
  obtain ⟨s, t, hrun, hs, hnull⟩ := hrun
  have hheard := (hclaim _ s _ t hrun hs).1
  rw [hnull] at hheard
  cases hheard

end

end Engine
end ProntoScript
