/-
# What `assert` takes for equal

`JSUnit_Assert` (`js/src/ext/jsunit.c`, lines 313-412) "matches the actual with the
expected type (convert if necessary) and compares them".  It compares in its own way,
not by `js_StrictlyEqual` (`js/src/jsinterp.c`, lines 1659-1689): an int and a double
do not match whatever their values, and two strings are compared as C strings, so up
to the first NUL, and only if both can be encoded.
-/

import ProntoScript.Engine.CodePoints
import ProntoScript.Engine.Number
import ProntoScript.JSUnit.Suite

namespace ProntoScript

/-- `js_StrictlyEqual`. Source: lines 1659-1689 of `js/src/jsinterp.c`. -/
def strictlyEqual : JSVal → JSVal → Bool
  | .string l, .string r => l == r
  | .double l, .double r => doubleEq l r
  | .double l, .int r => doubleEq l (intToDouble r)
  | .int l, .double r => doubleEq (intToDouble l) r
  | l, r => l == r

/-- The values are strictly equal, or `undefined` stands for the empty string. -/
def Matches (expected actual : JSVal) : Prop :=
  strictlyEqual expected actual = true ∨ expected = .string [] ∧ actual = .void

/-- `assert` records no failure if the values match, and one if they do not. -/
structure AssertsMatch (expected actual : JSVal) : Prop where
  accepts : Matches expected actual → ∀ suite rest,
    jsunitAssert suite (expected :: actual :: rest) = .returned suite (.ok ())
  records : ¬Matches expected actual → ∀ (suite : JSUnitSuite) i rest, suite.test = some i →
    jsunitAssert suite (expected :: actual :: rest) = .returned (suite.setResult i .fail) (.ok ())

/-- The comparison of `assert` can tell the two values apart if they do not match: no int
against a double of its value, no string without encoding, no two strings that differ
only behind a NUL. -/
def Comparable : JSVal → JSVal → Prop
  | .int e, .double a => doubleEq (intToDouble e) a = false
  | .double e, .int a => doubleEq e (intToDouble a) = false
  | .string e, .string a =>
      (deflateString e).isSome ∧ (deflateString a).isSome ∧
        (e = a ∨ e.takeWhile (· != 0) ≠ a.takeWhile (· != 0))
  | .string e, .void => (deflateString e).isSome ∧ e.head? ≠ some 0
  | _, _ => True

/-- A suite whose only case is running and has not failed. -/
def onePassing : JSUnitSuite := ⟨some 0, [⟨.uninitialised, .void, .pass⟩]⟩

section

variable {expected actual : JSVal} {e a : JSString}

/-- What is recorded depends on the comparison alone. -/
theorem assertsMatch_iff : AssertsMatch expected actual ↔
    assertCompare expected actual = some true ∧ Matches expected actual ∨
      assertCompare expected actual = some false ∧ ¬Matches expected actual := by
  constructor
  · intro h
    -- the suite shows whether a failure was recorded
    have haccepts := fun hm => h.accepts hm onePassing []
    have hrecords := fun hm => h.records hm onePassing 0 [] rfl
    simp only [jsunitAssert, onePassing] at haccepts hrecords
    rcases hc : assertCompare expected actual with _ | _ | _ <;> rw [hc] at haccepts hrecords <;>
      by_cases hm : Matches expected actual
    · cases haccepts hm
    · cases hrecords hm
    · cases haccepts hm
    · exact .inr ⟨rfl, hm⟩
    · exact .inl ⟨rfl, hm⟩
    · cases hrecords hm
  · rintro (⟨hc, hm⟩ | ⟨hc, hm⟩)
    · refine ⟨fun _ suite rest => ?_, fun hno => absurd hm hno⟩
      simp only [jsunitAssert, hc]
    · refine ⟨fun hyes => absurd hyes hm, fun _ suite i rest hi => ?_⟩
      simp only [jsunitAssert, hc, hi]

/-- A comparison that tells whether the values match. -/
theorem assertsMatch_of_compare {b : Bool} (hc : assertCompare expected actual = some b)
    (hm : Matches expected actual ↔ b = true) : AssertsMatch expected actual := by
  rw [assertsMatch_iff, hc, hm]
  cases b <;> simp

/-- Two strings. -/
theorem assertsMatch_string : AssertsMatch (.string e) (.string a) ↔
    Comparable (.string e) (.string a) := by
  have hmatch : Matches (.string e) (.string a) ↔ e = a := by simp [Matches, strictlyEqual]
  rw [assertsMatch_iff, hmatch]
  simp only [assertCompare, cString, Comparable]
  cases hx : deflateString e with
  | none => simp
  | some x =>
      cases hy : deflateString a with
      | none => simp
      | some y =>
          have htext := deflateString_takeWhile hx hy
          simp only [Option.map_some, Option.bind_some, Option.some.injEq, beq_iff_eq,
            beq_eq_false_iff_ne, ne_eq, htext, Option.isSome_some, true_and]
          constructor
          · rintro (⟨-, heq⟩ | ⟨hne, -⟩)
            · exact .inl heq
            · exact .inr hne
          · rintro (rfl | hne)
            · exact .inl ⟨rfl, rfl⟩
            · exact .inr ⟨hne, fun heq => hne (by rw [heq])⟩

/-- A string, and `undefined`. -/
theorem assertsMatch_void : AssertsMatch (.string e) .void ↔ Comparable (.string e) .void := by
  have hmatch : Matches (.string e) .void ↔ e = [] := by simp [Matches, strictlyEqual]
  rw [assertsMatch_iff, hmatch]
  simp only [assertCompare, cString, Comparable]
  cases hx : deflateString e with
  | none => simp
  | some x =>
      have htext := deflateString_takeWhile hx (t := []) rfl
      simp only [Option.map_some, Option.some.injEq, List.isEmpty_iff, Bool.eq_false_iff, ne_eq,
        Option.isSome_some, true_and]
      rw [show x.takeWhile (· != 0) = [] ↔ e.takeWhile (· != 0) = [] from htext]
      cases e with
      | nil => simp
      | cons c e => by_cases hc : c = 0 <;> simp [hc]

end

/-- **`assert` tells whether two values match** exactly where they are `Comparable`: not
an int beside a double of the same value, no string without an encoding, no two strings
that differ only behind a NUL, and none that begins with one beside `undefined`.  For the
others the comparison of types, or `strcmp` of the encodings, decides.  Source:
`JSUnit_Assert` (lines 313-412 of `js/src/ext/jsunit.c`), `js_StrictlyEqual`
(lines 1659-1689 of `js/src/jsinterp.c`) and `js_GetStringBytes` (lines 3207-3248 of
`js/src/jsstr.c`). -/
theorem assert_matches_iff (expected actual : JSVal)
    (htype : typeOfValue expected = .number ∨ typeOfValue expected = .string ∨
      typeOfValue expected = .boolean) :
    AssertsMatch expected actual ↔ Comparable expected actual := by
  cases expected with
  | int e =>
      cases actual with
      | double a =>
          have hm : Matches (.int e) (.double a) ↔ doubleEq (intToDouble e) a = true := by
            simp [Matches, strictlyEqual]
          rw [assertsMatch_iff, hm, Comparable]
          simp [assertCompare]
      | _ =>
          exact iff_of_true (assertsMatch_of_compare rfl (by simp [Matches, strictlyEqual])) trivial
  | double e =>
      cases actual with
      | int a =>
          have hm : Matches (.double e) (.int a) ↔ doubleEq e (intToDouble a) = true := by
            simp [Matches, strictlyEqual]
          rw [assertsMatch_iff, hm, Comparable]
          simp [assertCompare]
      | _ =>
          exact iff_of_true (assertsMatch_of_compare rfl (by simp [Matches, strictlyEqual])) trivial
  | boolean e =>
      cases actual <;>
        exact iff_of_true (assertsMatch_of_compare rfl (by simp [Matches, strictlyEqual])) trivial
  | string e =>
      cases actual with
      | string a => exact assertsMatch_string
      | void => exact assertsMatch_void
      | _ =>
          exact iff_of_true (assertsMatch_of_compare rfl (by simp [Matches, strictlyEqual])) trivial
  | _ => simp [typeOfValue] at htype

/-- Two short texts are told apart. -/
theorem assert_matches_letters : AssertsMatch (.string [0x61]) (.string [0x62]) :=
  (assert_matches_iff (.string [0x61]) (.string [0x62]) (.inr (.inl rfl))).2
    ⟨rfl, rfl, .inr (by decide)⟩

/-- **Texts that differ behind a NUL are taken for equal**, and the case passes. -/
theorem assert_accepts_difference : ¬∀ expected actual, typeOfValue expected = .number ∨
    typeOfValue expected = .string ∨ typeOfValue expected = .boolean →
    AssertsMatch expected actual := by
  intro hclaim
  have hmatch := hclaim (.string [0x61, 0, 0x62]) (.string [0x61, 0, 0x63]) (.inr (.inl rfl))
  have hrecords := hmatch.records (by simp [Matches, strictlyEqual]) onePassing 0 [] rfl
  cases hrecords

end ProntoScript
