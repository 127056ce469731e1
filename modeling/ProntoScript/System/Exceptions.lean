/-
# Exceptions of handlers and test functions

`TCPSocket_Invoke`, `UDPSocket_Invoke` and `JSUnit_RunTestCase` return what `js_Invoke`
returned.  The select callbacks drop it, `ps_HandleSelect` goes on with the next copy and
the loops around it always end well, so the exception of a handler makes nothing fail and
is not reported; it stays pending while the next handlers run, until a script happens to
catch it or to fail.  A test case that fails makes `run` fail in the end, but its
exception, too, is pending while the functions of the next cases run.

`Engine.NothingLost` says what should hold of every step, with the record of the calls
that have to fail (`Engine.noteThrown`), and `Engine.exceptions_contained` in which runs
it does.
-/

import ProntoScript.System.Include
import ProntoScript.System.Safety

namespace ProntoScript

open Transition (Run Guarded Obeying Recorded)

namespace Engine

/-- An exception raised while a handler or a test function was running is pending. -/
def leaks (e : Engine) : Bool :=
  match e.pending with
  | some x => x.async
  | none => false

/-- Native code calls a handler or a test function. -/
def handsOver (e : Engine) : EngineLabel → Bool
  | .dispatch r =>
      match e.stack with
      | .pass (d :: _) :: _ => match d.call e.proc r with
        | some (_, .invoke _) => true
        | _ => false
      | _ => false
  | .nextTest =>
      match e.stack with
      | .run s i _ :: _ => match e.suites s with
        | some suite => decide (i < suite.cases.length)
        | none => false
      | _ => false
  | _ => false

/-- The loop of `js_Execute` or `events()`, or a `run`, is left. -/
def returns (e : Engine) (l : EngineLabel) (e' : Engine) : Bool :=
  match l with
  | .handleSelect _ | .nextTest => decide (e'.stack.length < e.stack.length)
  | _ => false

/-- The calls that have to fail, by the height of their frames: those of the loop or the
`run` that called a handler or a test function which ended in an exception. -/
def noteThrown (e : Engine) (l : EngineLabel) (e' : Engine) (owed : List ℕ) : List ℕ :=
  if e.returns l e' then owed.filter (· != e.stack.length)
  else
    match l, e.stack with
    | .ended, .handler _ _ :: rest =>
        if e.raises then (rest.dropWhile fun f => !f.isLoop).length :: owed else owed
    | .ended, .run _ _ true :: rest => if e.raises then (rest.length + 1) :: owed else owed
    | _, _ => owed

/-- No exception of an earlier handler or test function is pending when the next one is
called, and a call that has to fail does. -/
def NothingLost (s : Engine × List ℕ) (l : EngineLabel) (t : Engine × List ℕ) : Prop :=
  (s.1.handsOver l = true → s.1.leaks = false) ∧
    (s.1.returns l t.1 = true → s.1.stack.length ∈ s.2 → t.1.failing = true)

/-- No handler ends in an exception, and of the test functions of a suite only that of the
last case; and while one of them is running, no include leaves an exception behind and
no select callback reports an error. -/
def Contained (s : Engine × List ℕ) : EngineLabel → Prop
  | .ended =>
      match s.1.stack with
      | .handler _ _ :: _ => s.1.raises = false
      | .run suite i true :: _ =>
          s.1.raises = true → ((s.1.suites suite).map fun q => q.cases.length) = some (i + 1)
      | .script .included :: _ => s.1.raises = true → s.1.inAsync = false
      | _ => True
  | .op (.systemInclude (some file)) => s.1.inAsync = true → file.loads = true
  | .dispatch r =>
      match s.1.stack with
      | .pass (d :: _) :: _ => match d.call s.1.proc r with
        | some (_, .reported _) => s.1.inAsync = false
        | _ => True
      | _ => True
  | _ => True

/-- Where the exceptions are: nowhere, on their way out of the calls that raised them, or
in the last test case of a suite that is about to fail. -/
inductive Mode (e : Engine) (owed : List ℕ) : Prop
  | calm (hleaks : e.leaks = false) (howed : owed = [])
  | unwinding (hfailing : e.failing = true) (hasync : e.leaks = true → e.inAsync = true)
      (howed : owed = [])
  | verdict (s : ObjId) (i : ℕ) (rest : List CallFrame) (suite : JSUnitSuite)
      (hstack : e.stack = .run s i false :: rest) (hsuite : e.suites s = some suite)
      (hi : suite.cases.length ≤ i) (hverdict : suite.verdict = .error (some .failingTestSuite))
      (howed : ∀ n ∈ owed, n = e.stack.length)

section

variable {e e' : Engine} {owed : List ℕ} {l : EngineLabel}

namespace Mode

/-- While a script or a loop goes on, nothing is on its way. -/
theorem calm_of_goes_on (h : Mode e owed) (hf : e.failing = false)
    (htop : ∀ s i rest, e.stack ≠ .run s i false :: rest) : e.leaks = false ∧ owed = [] := by
  cases h with
  | calm hleaks howed => exact ⟨hleaks, howed⟩
  | unwinding hfailing =>
      rw [hf] at hfailing
      cases hfailing
  | verdict s i rest suite hstack => exact absurd hstack (htop s i rest)

/-- A new exception. -/
theorem raise (e : Engine) : Mode e.raise [] :=
  .unwinding rfl id rfl

/-- A call whose failure does not leak leaves the mode. -/
theorem settle {ε α : Type} {r : Except (Option ε) α} (hleaks : e.leaks = false) :
    Mode (e.settle r) [] := by
  rcases r with (_ | _) | _
  · exact .calm hleaks rfl
  · exact .raise e
  · exact .calm hleaks rfl

/-- What follows an asynchronous call is calm. -/
theorem post (h : e.inAsync = false) : Mode e.post [] := .calm h rfl

/-- A script that is entered leaves the mode. -/
theorem enterScript {caller : ExecuteCaller} {newLock : Bool} (hleaks : e.leaks = false) :
    Mode (e.enterScript caller newLock) [] := by
  unfold Engine.enterScript
  split_ifs
  · exact .calm hleaks rfl
  · exact .calm hleaks rfl

end Mode

/-- What fails without an exception leaks none. -/
theorem leaks_of_not_raises (hf : e.failing = true) (h : e.raises = false) : e.leaks = false := by
  unfold raises at h
  rw [hf, Bool.true_and, Option.isSome_eq_false_iff, Option.isNone_iff_eq_none] at h
  unfold leaks
  rw [h]

/-- What a running script does. -/
theorem mode_op {o : ScriptOp} (hleaks : e.leaks = false) (hg : Contained (e, owed) (.op o))
    (ho : e.op o = some e') : Mode e' [] := by
  cases o with
  | throw =>
      cases ho
      exact .raise e
  | socket c =>
      obtain ⟨q, -, rfl⟩ := Option.map_eq_some_iff.1 ho
      exact Mode.settle hleaks
  | systemInclude found =>
      cases ho
      cases found with
      | none => exact .raise e
      | some file =>
          cases file with
          | cannotOpen =>
              have hasync : e.inAsync = false :=
                Bool.eq_false_iff.2 fun h => absurd (hg h) (by decide)
              exact .calm hasync rfl
          | doesNotCompile =>
              have hasync : e.inAsync = false :=
                Bool.eq_false_iff.2 fun h => absurd (hg h) (by decide)
              exact .post hasync
          | compiles newLock => exact .enterScript hleaks
  | execute newLock =>
      cases ho
      exact .enterScript hleaks
  | newJSUnit s mem =>
      dsimp only [op] at ho
      split_ifs at ho
      cases ho
      exact .calm hleaks rfl
  | add s argv mem =>
      dsimp only [op] at ho
      split at ho <;> cases ho
      · exact .calm hleaks rfl
      · exact Mode.settle hleaks
  | assert s argv =>
      dsimp only [op, assert] at ho
      split at ho <;> cases ho
      · exact .calm hleaks rfl
      · split
        · exact Mode.settle hleaks
        · exact .calm hleaks rfl
        · exact .calm hleaks rfl
  | run s =>
      dsimp only [op] at ho
      split at ho <;> cases ho <;> exact .calm hleaks rfl
  | _ =>
      cases ho
      exact .calm hleaks rfl

/-- The exceptions that the innermost call ends in: the engine is not between two test cases. -/
theorem Mode.innermost (h : Mode e owed) (htop : ∀ s i rest, e.stack ≠ .run s i false :: rest) :
    (e.raises = false → e.leaks = false) ∧ (e.leaks = true → e.inAsync = true) ∧ owed = [] := by
  cases h with
  | calm hleaks howed =>
      exact ⟨fun _ => hleaks, fun hl => absurd (hleaks.symm.trans hl) (by decide), howed⟩
  | unwinding hfailing hasync howed =>
      exact ⟨leaks_of_not_raises hfailing, hasync, howed⟩
  | verdict s i rest suite hstack => exact absurd hstack (htop s i rest)

/-- A test function that throws in the last test case makes the verdict of its suite an
error. -/
theorem mode_verdict {s : ObjId} {i : ℕ} {suite : JSUnitSuite} {rest : List CallFrame}
    (hr : e.raises = true) (hlen : suite.cases.length = i + 1) :
    Mode (Engine.setSuite { e with stack := .run s (i + 1) false :: rest, failing := false } s
      (suite.endCase i (!e.failing))) [rest.length + 1] := by
  have hfailing : e.failing = true := by
    unfold raises at hr
    rw [Bool.and_eq_true] at hr
    exact hr.1
  have hcase : suite.endCase i (!e.failing) = suite.setResult i .fail := by
    rw [hfailing]
    rfl
  have hfailed : (suite.setResult i .fail).HasFailed i := by
    rw [hasFailed_setResult, if_pos rfl]
    exact ⟨by omega, rfl⟩
  rw [hcase]
  refine .verdict s (i + 1) rest (suite.setResult i .fail) rfl (setSuite_self ..) ?_
    (verdict_of_hasFailed hfailed) ?_
  · rw [setResult_length]
    omega
  · intro n hn
    exact List.mem_singleton.1 hn

/-- The end of a script, of a handler and of a test function. -/
theorem mode_ended (h : Mode e owed) (hg : Contained (e, owed) .ended) (hs : Step e .ended e') :
    Mode e' (noteThrown e .ended e' owed) := by
  have hnote : e.returns .ended e' = false := rfl
  unfold noteThrown
  rw [hnote]
  unfold Contained at hg
  obtain ⟨caller, rest, hstack, hend⟩ | ⟨d, inv, rest, hstack, rfl⟩ |
    ⟨s, i, rest, suite, hstack, hsuite, rfl⟩ := step_ended hs
  · obtain ⟨hleaks, hasync, rfl⟩ := h.innermost (by rw [hstack]; rintro s i rest ⟨⟩)
    rw [hstack] at hg ⊢
    obtain ⟨hf, rfl⟩ | ⟨hf, rfl⟩ := hend
    · cases caller with
      | toplevel => exact .calm rfl rfl
      | included =>
          refine .calm (e := e.failScript .included rest) ?_ rfl
          show e.leaks = false
          cases hr : e.raises with
          | false => exact hleaks hr
          | true =>
              refine Bool.eq_false_iff.2 fun hl => ?_
              exact absurd ((hg hr).symm.trans (hasync hl)) (by decide)
      | native =>
          refine .unwinding hf (fun hl => ?_) rfl
          have hin := hasync hl
          unfold inAsync at hin
          rw [hstack] at hin
          exact hin
    · refine .calm ?_ rfl
      show e.leaks = false
      refine hleaks ?_
      unfold raises
      rw [hf]
      rfl
  · obtain ⟨hleaks, -, rfl⟩ := h.innermost (by rw [hstack]; rintro s i rest ⟨⟩)
    rw [hstack] at hg ⊢
    have hr : e.raises = false := hg
    simp only [hr]
    exact .calm (hleaks hr) rfl
  · obtain ⟨hleaks, -, rfl⟩ := h.innermost (by rw [hstack]; rintro s i rest ⟨⟩)
    rw [hstack] at hg ⊢
    dsimp only at hg ⊢
    cases hr : e.raises with
    | false => exact .calm (hleaks hr) rfl
    | true =>
        have hlen : suite.cases.length = i + 1 := by
          have := hg hr
          rw [hsuite] at this
          exact Option.some.inj this
        exact mode_verdict hr hlen

/-- The next test case, or the verdict. -/
theorem mode_nextTest (h : Mode e owed) (hs : Step e .nextTest e') :
    NothingLost (e, owed) .nextTest (e', noteThrown e .nextTest e' owed) ∧
      Mode e' (noteThrown e .nextTest e' owed) := by
  obtain ⟨hf, s, i, rest, suite, hstack, hsuite, ⟨hi, rfl⟩ | ⟨hi, rfl⟩⟩ := step_nextTest hs
  · -- a test function is called: this is not the time of a verdict
    obtain ⟨hleaks, rfl⟩ : e.leaks = false ∧ owed = [] := by
      cases h with
      | calm hleaks howed => exact ⟨hleaks, howed⟩
      | unwinding hfailing =>
          rw [hf] at hfailing
          cases hfailing
      | verdict s₁ i₁ rest₁ suite₁ hstack₁ hsuite₁ hi₁ =>
          rw [hstack] at hstack₁
          cases hstack₁
          rw [hsuite] at hsuite₁
          cases hsuite₁
          omega
    have hreturns : e.returns .nextTest
        (Engine.setSuite { e with stack := .run s i true :: rest } s (suite.startCase i)) = false := by
      show decide ((CallFrame.run s i true :: rest).length < e.stack.length) = false
      rw [hstack]
      simp
    refine ⟨⟨fun _ => hleaks, fun hr => ?_⟩, ?_⟩
    · rw [hreturns] at hr
      cases hr
    · unfold noteThrown
      rw [hreturns]
      exact .calm hleaks rfl
  · have hreturns : e.returns .nextTest (Engine.settle { e with stack := rest } suite.verdict) =
        true := by
      show decide ((Engine.settle { e with stack := rest } suite.verdict).stack.length <
        e.stack.length) = true
      rw [settle_stack, hstack]
      simp
    have hover : e.handsOver .nextTest = false := by
      simp only [handsOver, hstack, hsuite]
      exact decide_eq_false (by omega)
    unfold noteThrown NothingLost
    rw [hreturns, hover, if_pos rfl]
    cases h with
    | calm hleaks howed =>
        subst howed
        exact ⟨⟨fun hr => (by cases hr), fun _ hmem => (by cases hmem)⟩, Mode.settle hleaks⟩
    | unwinding hfailing =>
        rw [hf] at hfailing
        cases hfailing
    | verdict s₁ i₁ rest₁ suite₁ hstack₁ hsuite₁ hi₁ hverdict howed =>
        rw [hstack] at hstack₁
        cases hstack₁
        rw [hsuite] at hsuite₁
        cases hsuite₁
        rw [hverdict]
        have hnone : (owed.filter fun n => n != e.stack.length) = [] := by
          rw [List.filter_eq_nil_iff]
          intro n hn
          simp [howed n hn]
        rw [hnone]
        exact ⟨⟨fun hr => (by cases hr), fun _ _ => rfl⟩, .raise _⟩

/-- A script file, with no frame active. -/
theorem mode_process {file : ScriptFile} (h : Mode e owed) (hs : Step e (.process file) e') :
    Mode e' (noteThrown e (.process file) e' owed) := by
  obtain ⟨hstack, rfl⟩ := step_process hs
  obtain ⟨hleaks, rfl⟩ : e.leaks = false ∧ owed = [] := by
    cases h with
    | calm hleaks howed => exact ⟨hleaks, howed⟩
    | unwinding hfailing hasync howed =>
        refine ⟨Bool.eq_false_iff.2 fun hl => ?_, howed⟩
        have hin := hasync hl
        rw [inAsync, hstack] at hin
        cases hin
    | verdict s i rest suite hstack₁ =>
        rw [hstack] at hstack₁
        cases hstack₁
  rcases file with _ | _ | newLock
  · exact .calm hleaks rfl
  · exact .calm rfl rfl
  · exact .enterScript hleaks

/-- A callback, up to the call of its handler. -/
theorem mode_dispatch {r : CallbackReplies} (h : Mode e owed)
    (hg : Contained (e, owed) (.dispatch r)) (hs : Step e (.dispatch r) e') :
    NothingLost (e, owed) (.dispatch r) (e', noteThrown e (.dispatch r) e' owed) ∧
      Mode e' (noteThrown e (.dispatch r) e' owed) := by
  obtain ⟨hf, d, pending, rest, p, exit, hstack, -, hcall, rfl⟩ := step_dispatch hs
  obtain ⟨hleaks, rfl⟩ := h.calm_of_goes_on hf (by
    rw [hstack]
    rintro s i rest ⟨⟩)
  refine ⟨⟨fun _ => hleaks, fun hr => (by cases hr)⟩, ?_⟩
  cases exit with
  | silent => exact .calm hleaks rfl
  | invoke inv =>
      show Mode (if inv.func.isFunction then _ else Engine.raise _) []
      split_ifs
      · exact .calm hleaks rfl
      · exact .raise _
  | reported err =>
      have hasync : e.inAsync = false := by
        unfold Contained at hg
        simp only [hstack, hcall] at hg
        exact hg
      rw [inAsync, hstack] at hasync
      exact .post hasync

/-- **A step that contains its exceptions loses none.** -/
theorem step_mode (h : Mode e owed) (hg : Contained (e, owed) l) (hs : Step e l e') :
    NothingLost (e, owed) l (e', noteThrown e l e' owed) ∧ Mode e' (noteThrown e l e' owed) := by
  -- most steps call nothing and return from nothing
  have hquiet : e.handsOver l = false → e.returns l e' = false →
      NothingLost (e, owed) l (e', noteThrown e l e' owed) := by
    intro hover hreturns
    refine ⟨fun hr => ?_, fun hr => ?_⟩
    · rw [hover] at hr
      cases hr
    · rw [hreturns] at hr
      cases hr
  cases l with
  | process file => exact ⟨hquiet rfl rfl, mode_process h hs⟩
  | op o =>
      refine ⟨hquiet rfl rfl, ?_⟩
      obtain ⟨hruns, ho⟩ := step_op hs
      obtain ⟨hf, f, rest, hstack, hscript⟩ := head_of_scriptRuns hruns
      obtain ⟨hleaks, rfl⟩ := h.calm_of_goes_on hf (by
        rw [hstack]
        rintro s i rest ⟨⟩
        cases hscript)
      exact mode_op hleaks hg ho
  | caught =>
      refine ⟨hquiet rfl rfl, ?_⟩
      obtain ⟨-, ⟨f, rest, hstack, hscript⟩, rfl⟩ := step_caught hs
      refine .calm rfl ?_
      cases h with
      | calm hleaks howed => exact howed
      | unwinding hfailing hasync howed => exact howed
      | verdict s i rest suite hstack₁ =>
          rw [hstack] at hstack₁
          cases hstack₁
          cases hscript
  | ended => exact ⟨hquiet rfl rfl, mode_ended h hg hs⟩
  | handleSelect a =>
      obtain ⟨hf, loop, rest, hstack, hloop, hpass⟩ := step_handleSelect hs
      obtain ⟨hleaks, rfl⟩ := h.calm_of_goes_on hf (by
        rw [hstack]
        rintro s i rest ⟨⟩
        cases hloop)
      have hnote : noteThrown e (.handleSelect a) e' [] = [] := by
        unfold noteThrown
        split_ifs <;> rfl
      rw [hnote]
      refine ⟨⟨fun hr => (by cases hr), fun _ hmem => (by cases hmem)⟩, ?_⟩
      obtain ⟨-, rfl⟩ | ⟨reg, pending, -, rfl⟩ := hpass
      · exact .calm hleaks rfl
      · exact .calm hleaks rfl
  | dispatch r => exact mode_dispatch h hg hs
  | passed =>
      refine ⟨hquiet rfl rfl, ?_⟩
      obtain ⟨hf, rest, hstack, rfl⟩ := step_passed hs
      obtain ⟨hleaks, rfl⟩ := h.calm_of_goes_on hf (by
        rw [hstack]
        rintro s i rest ⟨⟩)
      exact .calm hleaks rfl
  | nextTest => exact mode_nextTest h hs
  | finalise o =>
      refine ⟨hquiet rfl rfl, ?_⟩
      obtain ⟨-, rfl⟩ := step_finalise hs
      cases h with
      | calm hleaks howed => exact .calm hleaks howed
      | unwinding hfailing hasync howed => exact .unwinding hfailing hasync howed
      | verdict s i rest suite hstack hsuite hi hverdict howed =>
          exact .verdict s i rest suite hstack hsuite hi hverdict howed

/-- **Exceptions of asynchronous code.**  In a run in which no handler ends in an
exception, of the test functions of a suite only that of the last case does, and while one
of them is running no include leaves an exception behind and no select callback reports an
error, no handler or test function is called while an exception of an earlier one is
pending, and the exception of a test function makes its `run` fail.  Source:
`TCPSocket_Invoke` (lines 404-436 of `js/src/ext/pstcpsocket.c`), `ps_HandleSelect`
(lines 301-317 of `js/src/ext/psselect.c`), `JSUnit_Run` (lines 494-520 of
`js/src/ext/jsunit.c`) and `js_Execute` (lines 1437-1467 of `js/src/jsinterp.c`): none of
them looks whether an exception is pending. -/
theorem exceptions_contained {ls : List EngineLabel}
    (hrun : Run (Guarded Contained (Recorded noteThrown Step)) (start, []) ls (e, owed)) :
    Run (Obeying NothingLost (Recorded noteThrown Step)) (start, []) ls (e, owed) := by
  refine hrun.obeying (R := NothingLost) (I := fun s => Mode s.1 s.2) ?_ (.calm rfl rfl)
  rintro ⟨e, owed⟩ l ⟨e', owed'⟩ h hg ⟨hs, ho⟩
  obtain rfl : owed' = noteThrown e l e' owed := ho
  exact step_mode h hg hs

/-- A test function throws, and the script with its suite fails. -/
theorem exceptions_contained_in_test : ∃ e : Engine, e.stack = [] ∧ e.reports = 1 ∧
    ∃ ls owed, Run (Obeying NothingLost (Recorded noteThrown Step)) (start, []) ls (e, owed) := by
  have hrun : ∃ e : Engine, e.stack = [] ∧ e.reports = 1 ∧
      Run (Guarded Contained (Recorded noteThrown Step)) (start, [])
        [.process (.compiles true), .op (.newJSUnit 0 true), .op (.add 0 [.function 1] true),
          .op (.run 0), .nextTest, .op .throw, .ended, .nextTest, .ended] (e, []) :=
    ⟨_, rfl, rfl, .recorded_cons trivial rfl <| .recorded_cons trivial rfl <|
      .recorded_cons trivial rfl <| .recorded_cons trivial rfl <| .recorded_cons trivial rfl <|
      .recorded_cons trivial rfl <| .recorded_cons (fun _ => rfl) rfl <|
      .recorded_cons trivial rfl <| .recorded_cons trivial rfl <| .nil _⟩
  obtain ⟨e, hstack, hreports, hrun⟩ := hrun
  exact ⟨e, hstack, hreports, _, _, exceptions_contained hrun⟩

/-- `select` fails on a socket without an `onIOError`: the call of `undefined` raises an
exception, and `js_Execute` ends well. -/
theorem handler_exception_lost : ¬ ∀ ls s l t, Run (Recorded noteThrown Step) (start, []) ls s →
    Recorded noteThrown Step s l t → NothingLost s l t := by
  intro hclaim
  have hrun : ∃ s t, Run (Recorded noteThrown Step) (start, [])
      [.process (.compiles true), .op (.socket (.newTCPSocket 0 [] true)),
        .op (.socket (.connect 0 peerArgs (connectAnswers 3 .inProgress))), .ended,
        .handleSelect ⟨.failed, ⟨0, 0⟩, ⟨0, 0⟩⟩, .dispatch ⟨⟨true, .ready, "", true, true⟩, []⟩,
        .ended, .passed] s ∧
      Recorded noteThrown Step s (.handleSelect ⟨.timedOut, ⟨0, 0⟩, ⟨0, 0⟩⟩) t ∧
      s.1.returns (.handleSelect ⟨.timedOut, ⟨0, 0⟩, ⟨0, 0⟩⟩) t.1 = true ∧
      s.1.stack.length ∈ s.2 ∧ t.1.failing = false :=
    ⟨_, (_, _), Run.of_guarded (G := fun _ _ => True) <| .recorded_cons trivial rfl <|
      .recorded_cons trivial rfl <| .recorded_cons trivial rfl <| .recorded_cons trivial rfl <|
      .recorded_cons trivial rfl <| .recorded_cons trivial rfl <| .recorded_cons trivial rfl <|
      .recorded_cons trivial rfl <| .nil _, ⟨rfl, rfl⟩, rfl, List.mem_cons_self .., rfl⟩
  obtain ⟨s, t, hrun, hs, hreturns, howed, hfine⟩ := hrun
  have hfails := (hclaim _ s _ t hrun hs).2 hreturns howed
  rw [hfine] at hfails
  cases hfails

end

end Engine
end ProntoScript
