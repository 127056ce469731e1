/-
# `JSUnit`

`js/src/ext/jsunit.c`: the suite, its test cases, `add`, `assert` and the parts of
`run` between the calls of the test functions.  A test case stands for its pointer
by its place in the list: cases are only appended, and released with the suite.

The `name` of a test case is what `JSVAL_TO_STRING` made of an argument, whatever
its tag, or, where `add` got no name, the value the local variable happened to
have.  `passed`, `failed` and the name of the suite are stored and not read again.
-/

import ProntoScript.Engine.Utf8

namespace ProntoScript

/-- `result_t`. Source: lines 63-68 of `js/src/ext/jsunit.c`. -/
inductive TestResult
  | notRun
  | pass
  | fail
deriving DecidableEq, Repr

/-- The name of a test case: an argument, or an uninitialised variable. -/
inductive TestName
  | ofValue (v : JSVal)
  | uninitialised
deriving DecidableEq, Repr

/-- `JSUnitTestCase`. Source: lines 70-75 of `js/src/ext/jsunit.c`. -/
structure JSUnitTestCase where
  name : TestName
  func : JSVal
  result : TestResult
deriving DecidableEq, Repr

/-- `JSUnitSuite`: the test case currently being executed, and all of them. Source:
lines 77-83 of `js/src/ext/jsunit.c`. -/
structure JSUnitSuite where
  test : Option ℕ
  cases : List JSUnitTestCase
deriving DecidableEq, Repr

/-- The messages of `ps.msg` and `js.msg` that `JSUnit` reports. -/
inductive JSUnitMsg
  | notEnoughArguments
  | notFunction
  | failingTestSuite
  | notAllTestCasesRun
deriving DecidableEq, Repr

/-- Their format strings; `add` reports the second without its argument. -/
def JSUnitMsg.format : JSUnitMsg → String
  | .notEnoughArguments => "not enough arguments specified"
  | .notFunction => "\x7b0\x7d is not a function"
  | .failingTestSuite => "failing test suite"
  | .notAllTestCasesRun => "not all test cases have run"

/-- How a method of `JSUnit` returns: `JS_TRUE`, or `JS_FALSE` with the error it
reported, if it reported one. -/
abbrev JSUnitReturn := Except (Option JSUnitMsg) Unit

/-- `JSUnit_New`, given whether `JS_malloc` succeeds. Source: lines 127-141 of
`js/src/ext/jsunit.c`. -/
def jsunitNew (mem : Bool) : Option JSUnitSuite := if mem then some ⟨none, []⟩ else none

/-- The arguments of `add`: a name in front of the function only if there are
exactly two. -/
def jsunitAddArgs (argv : List JSVal) : Except (Option JSUnitMsg) (TestName × JSVal) :=
  match argv with
  | [] => .error (some .notEnoughArguments)
  | [name, func] =>
      if func.isFunction then .ok (.ofValue name, func) else .error (some .notFunction)
  | func :: _ =>
      if func.isFunction then .ok (.uninitialised, func) else .error (some .notFunction)

/-- `JSUnit_Add`, given whether `JS_malloc` succeeds. Source: lines 221-279 of
`js/src/ext/jsunit.c`. -/
def jsunitAdd (suite : JSUnitSuite) (argv : List JSVal) (mem : Bool) : JSUnitSuite × JSUnitReturn :=
  match jsunitAddArgs argv with
  | .error e => (suite, .error e)
  | .ok (name, func) =>
      if mem then ({ suite with cases := suite.cases ++ [⟨name, func, .notRun⟩] }, .ok ())
      else (suite, .error none)

/-! ### Assertions -/

/-- The double is not a number. -/
def doubleIsNaN (bits : UInt64) : Bool :=
  bits.toNat / 2 ^ 52 % 2 ^ 11 == 2 ^ 11 - 1 && bits.toNat % 2 ^ 52 != 0

/-- `==` on doubles: not reflexive on NaN, and the two zeros are equal. -/
def doubleEq (x y : UInt64) : Bool :=
  !doubleIsNaN x && !doubleIsNaN y &&
    (x == y || x.toNat % 2 ^ 63 == 0 && y.toNat % 2 ^ 63 == 0)

/-- The C string of a JavaScript string: its bytes up to the first NUL, none where it
has no encoding. -/
def cString (s : JSString) : Option (List UInt8) := (deflateString s).map (·.takeWhile (· != 0))

/-- The comparison of `JSUnit_Assert`; `none` where `strcmp` or `strlen` is given the null
pointer of a string without encoding. Source: lines 293-415 of `js/src/ext/jsunit.c`. -/
def assertCompare (expected actual : JSVal) : Option Bool :=
  match expected, actual with
  | .int e, .int a => some (e == a)
  | .double e, .double a => some (doubleEq e a)
  | .string e, .string a => (cString e).bind fun e => (cString a).map fun a => e == a
  | .string e, .void => (cString e).map fun e => e.isEmpty
  | .boolean e, .boolean a => some (e == a)
  | _, _ => some false

/-- Store a result to a test case. -/
def JSUnitSuite.setResult (suite : JSUnitSuite) (i : ℕ) (result : TestResult) : JSUnitSuite :=
  { suite with cases := suite.cases.modify i fun c => { c with result } }

/-- How a call of `JSUnit_Assert` goes: it returns, or it writes through a null
pointer. -/
inductive AssertExit
  | returned (suite : JSUnitSuite) (r : JSUnitReturn)
  | nullWrite
  | nullRead

/-- `JSUnit_Assert`: a comparison that fails is recorded in the running test case. Source:
lines 293-415 of `js/src/ext/jsunit.c`. -/
def jsunitAssert (suite : JSUnitSuite) (argv : List JSVal) : AssertExit :=
  match argv with
  | expected :: actual :: _ =>
      match assertCompare expected actual with
      | none => .nullRead
      | some true => .returned suite (.ok ())
      | some false =>
          match suite.test with
          | none => .nullWrite
          | some i => .returned (suite.setResult i .fail) (.ok ())
  | _ => .returned suite (.error (some .notEnoughArguments))

/-! ### Running -/

/-- Before the call of the function of case `i`. -/
def JSUnitSuite.startCase (suite : JSUnitSuite) (i : ℕ) : JSUnitSuite :=
  { suite with test := some i }.setResult i .pass

/-- After the call of the function of case `i`. -/
def JSUnitSuite.endCase (suite : JSUnitSuite) (i : ℕ) (ok : Bool) : JSUnitSuite :=
  if ok then suite else suite.setResult i .fail

/-- What `run` returns once it has gone through the cases. Source: `JSUnit_Run`,
lines 479-548 of `js/src/ext/jsunit.c`. -/
def JSUnitSuite.verdict (suite : JSUnitSuite) : JSUnitReturn :=
  let pass := suite.cases.countP (·.result = .pass)
  let fail := suite.cases.countP (·.result = .fail)
  if 0 < fail then .error (some .failingTestSuite)
  else if suite.cases.length ≠ pass + fail then .error (some .notAllTestCasesRun)
  else .ok ()

section

variable {suite : JSUnitSuite} {i j : ℕ} {result : TestResult}

/-- A test case of a suite that failed. -/
def JSUnitSuite.HasFailed (suite : JSUnitSuite) (i : ℕ) : Prop :=
  ∃ c, suite.cases[i]? = some c ∧ c.result = .fail

@[simp] theorem setResult_test : (suite.setResult i result).test = suite.test := rfl

@[simp] theorem setResult_length :
    (suite.setResult i result).cases.length = suite.cases.length := by
  simp [JSUnitSuite.setResult]

/-- A result is written to one test case. -/
theorem getElem?_setResult : (suite.setResult i result).cases[j]? =
    if i = j then suite.cases[j]?.map fun c => { c with result } else suite.cases[j]? := by
  by_cases hij : i = j <;> simp [JSUnitSuite.setResult, hij]

/-- What a store to one case leaves of the failures. -/
theorem hasFailed_setResult : (suite.setResult i result).HasFailed j ↔
    if i = j then j < suite.cases.length ∧ result = .fail else suite.HasFailed j := by
  unfold JSUnitSuite.HasFailed
  rw [getElem?_setResult]
  by_cases hij : i = j
  · rw [if_pos hij, if_pos hij]
    constructor
    · rintro ⟨c, hc, hres⟩
      obtain ⟨c, hj, rfl⟩ := Option.map_eq_some_iff.1 hc
      exact ⟨(List.getElem?_eq_some_iff.1 hj).1, hres⟩
    · rintro ⟨hj, rfl⟩
      exact ⟨_, by rw [List.getElem?_eq_getElem hj]; rfl, rfl⟩
  · rw [if_neg hij, if_neg hij]

/-- **A failed case fails the suite.** -/
theorem verdict_of_hasFailed (h : suite.HasFailed i) :
    suite.verdict = .error (some .failingTestSuite) := by
  obtain ⟨c, hc, hres⟩ := h
  have hpos : 0 < suite.cases.countP (·.result = .fail) :=
    List.countP_pos_iff.2 ⟨c, List.mem_of_getElem? hc, by simpa using hres⟩
  exact if_pos hpos

end

end ProntoScript
