/-
# `run` where the collector runs

`JSUnit_Run` (`js/src/ext/jsunit.c`, lines 479-548) calls the functions of its test cases
and prints their names.  Both lie in malloc'ed memory, where the collector does not see
them (`ProntoScript.System.Collector`), so a collection between `add` and the call frees
what `run` is about to use, unless the script keeps it.  An assertion made meanwhile can
end the whole process: `js_GetStringBytes` (`js/src/jsstr.c`, lines 3207-3250) answers
`NULL` for a string with an unpaired surrogate, and `JSUnit_Assert` (lines 350-380) gives
it to `strcmp` or `strlen` as it is.

`ProntoScript.System.TestRun` says what `run` reports as long as it gets on.  Here it is
put on the object graph: in which runs every function is still there when it is called and
every name when it is printed, and nothing cuts the run off (`Heap.run_reports`).
-/

import ProntoScript.System.TestRun

namespace ProntoScript

open Transition (Run Guarded Obeying Recorded)

/-- The strings that `assert` compares have an encoding, a string by itself where the other
value is `undefined`. -/
def Encoded : List JSVal → Prop
  | .string e :: .string a :: _ => (deflateString e).isSome = true ∧ (deflateString a).isSome = true
  | .string e :: .void :: _ => (deflateString e).isSome = true
  | _ => True

/-- **`assert` reads through a null pointer** exactly where one has none.
Source: `JSUnit_Assert`, lines 350-368. -/
theorem jsunitAssert_nullRead_iff {suite : JSUnitSuite} {argv : List JSVal} :
    jsunitAssert suite argv = .nullRead ↔ ¬ Encoded argv := by
  rcases argv with _ | ⟨expected, _ | ⟨actual, rest⟩⟩
  · exact iff_of_false (fun h => by cases h) (fun h => h trivial)
  · refine iff_of_false (fun h => by cases h) (fun h => h ?_)
    cases expected <;> trivial
  · have hread : jsunitAssert suite (expected :: actual :: rest) = .nullRead ↔
        assertCompare expected actual = none := by
      unfold jsunitAssert
      dsimp only
      rcases assertCompare expected actual with _ | (_ | _)
      · simp
      · cases suite.test <;> simp
      · simp
    rw [hread]
    cases expected <;> cases actual <;> simp [assertCompare, Encoded, cString]
    case string.string e a =>
      cases deflateString e <;> cases deflateString a <;> simp

namespace Engine

/-! ### What the steps do to the frames -/

/-- The C standard says nothing about the step: an assertion that goes through a null
pointer, or a `js_Execute` that has no lock and cannot make one. -/
def Undefines (e : Engine) : EngineLabel → Prop
  | .process (.compiles newLock) | .op (.systemInclude (some (.compiles newLock)))
  | .op (.execute newLock) => (e.psEventsLock || newLock) = false
  | .op (.assert s argv) => ¬ Encoded argv ∧ e.suites s ≠ none ∨
      e.writesNull (.op (.assert s argv)) = true
  | _ => False

/-- The step is not undefined, where a suite is being run: that an assertion of the suite has
a current test case is left to `run`. -/
def Answers (s : ObjId) (e : Engine) : EngineLabel → Prop
  | .op (.assert t argv) =>
      if t = s then Encoded argv else ¬ e.Undefines (.op (.assert t argv))
  | l => ¬ e.Undefines l

/-- What a step does to the frames: nothing, or it puts the frame on top without which no
step follows, or it replaces the innermost frame by others. -/
inductive StackStep (e : Engine) (l : EngineLabel) : List CallFrame → Prop
  | same : StackStep e l e.stack
  | undefined (hu : e.Undefines l) (hhead : e.stack.head? ≠ some .undefined) :
      StackStep e l (.undefined :: e.stack)
  | replaced {fs : List CallFrame} (hhead : e.stack.head? ≠ some .undefined)
      (hfs : .undefined ∉ fs) : StackStep e l (fs ++ e.stack.tail)

section

variable {e e' : Engine} {l : EngineLabel}

/-- What a write through a null pointer is. -/
theorem assert_of_writesNull {s : ObjId} {argv : List JSVal}
    (h : e.writesNull (.op (.assert s argv)) = true) :
    ∃ suite, e.suites s = some suite ∧ jsunitAssert suite argv = .nullWrite := by
  simp only [writesNull] at h
  cases hsuite : e.suites s with
  | none =>
      rw [hsuite] at h
      cases h
  | some suite =>
      rw [hsuite] at h
      dsimp only at h
      refine ⟨suite, rfl, ?_⟩
      cases hexit : jsunitAssert suite argv with
      | nullWrite => rfl
      | _ =>
          rw [hexit] at h
          cases h

/-- Where the current test case is one of the suite, an answer is defined. -/
theorem Answers.not_undefines {s : ObjId} (h : Answers s e l)
    (htest : ∀ argv suite, l = .op (.assert s argv) → e.suites s = some suite → suite.test ≠ none) :
    ¬ e.Undefines l := by
  cases l with
  | op o =>
      cases o with
      | assert t argv =>
          by_cases hts : t = s
          · subst hts
            have henc : Encoded argv := by rwa [Answers, if_pos rfl] at h
            rintro (⟨hno, -⟩ | hnull)
            · exact hno henc
            · obtain ⟨suite, hsuite, hexit⟩ := assert_of_writesNull hnull
              exact htest argv suite rfl hsuite (jsunitAssert_nullWrite hexit).2
          · rwa [Answers, if_neg hts] at h
      | _ => exact h
  | _ => exact h

/-- A frame on top of a script. -/
theorem stackStep_push {f : CallFrame} (h : e.scriptRuns = true) (hf : f ≠ .undefined) :
    StackStep e l (f :: e.stack) := by
  obtain ⟨-, top, rest, hstack, htop⟩ := head_of_scriptRuns h
  have hne : CallFrame.undefined ≠ top := by
    rintro rfl
    cases htop
  have hfs : StackStep e l ([f, top] ++ e.stack.tail) := by
    refine .replaced ?_ ?_
    · rw [hstack]
      exact fun heq => hne (Option.some.inj heq).symm
    · simp [Ne.symm hf, hne]
  rw [hstack] at hfs ⊢
  exact hfs

/-- Where a script runs nothing undefined has happened. -/
theorem head_ne_of_scriptRuns (h : e.scriptRuns = true) : e.stack.head? ≠ some .undefined := by
  obtain ⟨-, top, rest, hstack, htop⟩ := head_of_scriptRuns h
  rw [hstack]
  rintro ⟨⟩
  cases htop

/-- `js_Execute` up to the interpretation, in a script. -/
theorem stackStep_enterScript {caller : ExecuteCaller} {newLock : Bool}
    (h : e.scriptRuns = true) (hl : (e.psEventsLock || newLock) = false → e.Undefines l) :
    StackStep e l (e.enterScript caller newLock).stack := by
  unfold enterScript
  split_ifs with hlock
  · exact stackStep_push h (by rintro ⟨⟩)
  · exact .undefined (hl (by simpa using hlock)) (head_ne_of_scriptRuns h)

/-- What a running script does. -/
theorem stackStep_op {o : ScriptOp} (h : e.scriptRuns = true) (ho : e.op o = some e') :
    StackStep e (.op o) e'.stack := by
  cases o with
  | socket c =>
      obtain ⟨q, -, rfl⟩ := Option.map_eq_some_iff.1 ho
      rw [settle_stack]
      exact .same
  | systemInclude found =>
      cases ho
      rcases found with _ | _ | _ | newLock
      · exact .same
      · exact .same
      · exact .same
      · exact stackStep_enterScript h fun hno => hno
  | execute newLock =>
      cases ho
      exact stackStep_enterScript h fun hno => hno
  | newJSUnit s mem =>
      dsimp only [op] at ho
      split_ifs at ho
      cases ho
      exact .same
  | add s argv mem =>
      dsimp only [op] at ho
      split at ho <;> cases ho
      · exact .same
      · rw [settle_stack]
        exact .same
  | assert s argv =>
      dsimp only [op, assert] at ho
      cases hs : e.suites s with
      | none =>
          rw [hs] at ho
          cases ho
          exact .same
      | some suite =>
          rw [hs] at ho
          cases ho
          cases hexit : jsunitAssert suite argv with
          | returned suite' r =>
              dsimp only
              rw [settle_stack]
              exact .same
          | nullWrite =>
              refine .undefined (Or.inr ?_) (head_ne_of_scriptRuns h)
              simp only [writesNull, hs, hexit]
          | nullRead =>
              refine .undefined (Or.inl ⟨jsunitAssert_nullRead_iff.1 hexit, ?_⟩)
                (head_ne_of_scriptRuns h)
              rw [hs]
              rintro ⟨⟩
  | events =>
      cases ho
      exact stackStep_push h (by rintro ⟨⟩)
  | run s =>
      dsimp only [op] at ho
      split at ho <;> cases ho
      · exact .same
      · exact stackStep_push h (by rintro ⟨⟩)
  | _ =>
      cases ho
      exact .same

/-- The innermost frame goes, or another comes in its place. -/
theorem stackStep_top (fs : List CallFrame) {f : CallFrame} {rest : List CallFrame}
    (hstack : e.stack = f :: rest) (hf : f ≠ .undefined) (hfs : .undefined ∉ fs) :
    StackStep e l (fs ++ rest) := by
  have h : StackStep e l (fs ++ e.stack.tail) := by
    refine .replaced ?_ hfs
    rw [hstack]
    exact fun heq => hf (Option.some.inj heq)
  rw [hstack] at h
  exact h

/-- **What the steps do to the frames.** -/
theorem step_stack (h : Step e l e') : StackStep e l e'.stack := by
  cases l with
  | process file =>
      obtain ⟨hstack, rfl⟩ := step_process h
      have hhead : e.stack.head? ≠ some .undefined := by
        rw [hstack]
        rintro ⟨⟩
      cases file with
      | compiles newLock =>
          dsimp only [process, enterScript]
          split_ifs with hlock
          · have hone : StackStep e (.process (.compiles newLock))
                ([.script .toplevel] ++ e.stack.tail) := .replaced hhead (by simp)
            rw [hstack] at hone ⊢
            exact hone
          · exact .undefined (by simpa [Undefines] using hlock) hhead
      | _ => exact .same
  | op o => exact stackStep_op (step_op h).1 (step_op h).2
  | caught =>
      obtain ⟨-, -, rfl⟩ := step_caught h
      exact .same
  | ended =>
      obtain ⟨caller, rest, hstack, ⟨-, rfl⟩ | ⟨-, rfl⟩⟩ | ⟨d, inv, rest, hstack, rfl⟩ |
        ⟨s, i, rest, suite, hstack, -, rfl⟩ := step_ended h
      · have hgone : StackStep e .ended ([] ++ rest) :=
          stackStep_top [] hstack (by rintro ⟨⟩) List.not_mem_nil
        cases caller <;> exact hgone
      · exact stackStep_top [.draining caller] hstack (by rintro ⟨⟩) (by simp)
      · exact stackStep_top [] hstack (by rintro ⟨⟩) List.not_mem_nil
      · exact stackStep_top [.run s (i + 1) false] hstack (by rintro ⟨⟩) (by simp)
  | handleSelect a =>
      obtain ⟨-, loop, rest, hstack, hloop, ⟨-, rfl⟩ | ⟨reg, pending, -, rfl⟩⟩ :=
        step_handleSelect h
      all_goals
        have hne : loop ≠ .undefined := by
          rintro rfl
          cases hloop
      · exact stackStep_top [] hstack hne List.not_mem_nil
      · exact stackStep_top [.pass pending, loop] hstack hne (by simp [Ne.symm hne])
  | dispatch r =>
      obtain ⟨-, d, pending, rest, p, exit, hstack, -, -, rfl⟩ := step_dispatch h
      rw [callback_stack]
      have hpush : StackStep e (.dispatch r) ((d.push exit ++ [.pass pending]) ++ rest) :=
        stackStep_top _ hstack (by rintro ⟨⟩) (by cases exit <;> simp [Dispatch.push])
      rw [List.append_assoc] at hpush
      exact hpush
  | passed =>
      obtain ⟨-, rest, hstack, rfl⟩ := step_passed h
      exact stackStep_top [] hstack (by rintro ⟨⟩) List.not_mem_nil
  | nextTest =>
      obtain ⟨-, s, i, rest, suite, hstack, -, ⟨-, rfl⟩ | ⟨-, rfl⟩⟩ := step_nextTest h
      · exact stackStep_top [.run s i true] hstack (by rintro ⟨⟩) (by simp)
      · rw [settle_stack]
        exact stackStep_top [] hstack (by rintro ⟨⟩) List.not_mem_nil
  | finalise o =>
      obtain ⟨-, rfl⟩ := step_finalise h
      exact .same

/-- Only the innermost frame is undefined, in every run. -/
theorem step_tail_defined (h : Step e l e') (ht : .undefined ∉ e.stack.tail) :
    .undefined ∉ e'.stack.tail := by
  have hst := step_stack h
  generalize e'.stack = stack at hst ⊢
  cases hst with
  | same => exact ht
  | undefined hu hhead =>
      intro hmem
      rw [List.tail_cons] at hmem
      cases hstack : e.stack with
      | nil =>
          rw [hstack] at hmem
          cases hmem
      | cons f rest =>
          rw [hstack] at hhead ht hmem
          obtain rfl | hrest := List.mem_cons.1 hmem
          · exact hhead rfl
          · exact ht hrest
  | @replaced fs hhead hfs =>
      intro hmem
      obtain hnew | hold := List.mem_append.1 (List.mem_of_mem_tail hmem)
      · exact hfs hnew
      · exact ht hold

end

end Engine

namespace Heap

/-! ### The runs -/

/-- The record of the tests of a suite; a collection that finalises the suite ends it. -/
def noteTests (s : ObjId) (h : Heap) (l : HeapLabel) (h' : Heap) (rec : TestRecord) : TestRecord :=
  match l with
  | .engine l _ => Engine.noteRun s h.engine l h'.engine rec
  | .gc os => if s ∈ os then .empty else rec
  | _ => rec

/-- What the test cases of an object use: their functions and their names. -/
inductive CaseUses (h : Heap) (s : ObjId) : GcThing → Prop
  | func {v : JSVal} {x : GcThing} (hv : v ∈ h.engine.funcs s) (hx : v.thing? = some x) :
      CaseUses h s x
  | name {x : GcThing} (hx : some x ∈ h.names s) : CaseUses h s x

/-- The name of a test case is a string with an encoding, and was not freed. -/
def Printable (h : Heap) (s : ObjId) (i : ℕ) : Prop :=
  ∃ name f a, (h.engine.tests s)[i]? = some (.ofValue (.string name), f) ∧
    (deflateString name).isSome = true ∧ (h.names s)[i]? = some (some (.cell a)) ∧
    ¬ h.collected (.cell a)

/-- The suite is used as it should be: `run` is not called on it while it runs, and `add`
is given a string for the name. -/
def UsesSuite (s : ObjId) (x : Heap × TestRecord) : HeapLabel → Prop
  | .engine l _ =>
      Engine.RunsOnce s (x.1.engine, x.2) l ∧
        ∀ n f, x.1.engine.adds l = some (s, n, f) → ∃ name, n = .ofValue (.string name)
  | _ => True

/-- While the suite runs, its assertions compare strings that have an encoding, and no other
step is undefined either; the names of its test cases have an encoding. -/
def StaysDefined (s : ObjId) (x : Heap × TestRecord) : HeapLabel → Prop
  | .engine l _ =>
      (runsOf s x.1.engine.stack ≠ [] → x.1.engine.Answers s l) ∧
        ∀ name f, x.1.engine.adds l = some (s, .ofValue (.string name), f) →
          (deflateString name).isSome = true
  | _ => True

/-- What `run` does with the test cases: it reports what the record says, every function it
calls and every name it prints is there, and while it runs no step is undefined. -/
structure RunsCases (s : ObjId) (x : Heap × TestRecord) (l : HeapLabel) (y : Heap × TestRecord) :
    Prop where
  reports : ∀ l' name, l = .engine l' name →
    Engine.RunReports s (x.1.engine, x.2) l' (y.1.engine, y.2)
  calls : ∀ name i rest f, l = .engine .nextTest name →
    x.1.engine.stack = .run s i false :: rest → (x.1.engine.funcs s)[i]? = some f → x.1.Exists f
  prints : ∀ name i rest, l = .engine .ended name →
    x.1.engine.stack = .run s i true :: rest → x.1.Printable s i
  goesOn : runsOf s y.1.engine.stack ≠ [] → .undefined ∉ y.1.engine.stack

/-- The name of a test case, and what it points to. -/
def NamedBy (n : TestName) (thing : Option GcThing) : Prop :=
  ∃ name a, n = .ofValue (.string name) ∧ (deflateString name).isSome = true ∧
    thing = some (.cell a)

/-- The suite agrees with the record, its test cases have names, what they use is there,
and a run of the suite is not cut off. -/
structure Sound (s : ObjId) (x : Heap × TestRecord) : Prop where
  inStep : Engine.InStep s x.1.engine x.2
  tail : .undefined ∉ x.1.engine.stack.tail
  goesOn : runsOf s x.1.engine.stack ≠ [] → .undefined ∉ x.1.engine.stack
  named : List.Forall₂ NamedBy ((x.1.engine.tests s).map Prod.fst) (x.1.names s)
  stays : ∀ y, x.1.CaseUses s y → ¬ x.1.collected y

section

variable {s : ObjId} {h h' : Heap} {rec : TestRecord} {l : EngineLabel} {name : Option GcThing}

/-- While the suite runs no step is undefined: the current test case is one of its own. -/
theorem Sound.not_undefines {e : Engine} (hs : Sound s (h, rec))
    (hg : StaysDefined s (h, rec) (.engine l name)) (hst : Engine.Step h.engine l e)
    (hruns : runsOf s h.engine.stack ≠ []) : ¬ h.engine.Undefines l := by
  refine (hg.1 hruns).not_undefines fun argv suite hl hsuite hnone => ?_
  subst hl
  obtain ⟨⟨i, inTest⟩, hmem⟩ := List.exists_mem_of_ne_nil _ hruns
  obtain ⟨-, htest⟩ := hs.inStep.running.current (Engine.step_op hst).1 hsuite hmem
  rw [hnone] at htest
  cases htest

/-- A run of the suite is not cut off. -/
theorem Sound.goesOn_engine {e : Engine} (hs : Sound s (h, rec))
    (hg : StaysDefined s (h, rec) (.engine l name)) (hst : Engine.Step h.engine l e) :
    runsOf s e.stack ≠ [] → .undefined ∉ e.stack := by
  have hframes := Engine.step_stack hst
  generalize e.stack = stack at hframes ⊢
  cases hframes with
  | same => exact hs.goesOn
  | undefined hu hhead => exact fun hruns => absurd hu (hs.not_undefines hg hst hruns)
  | @replaced fs hhead hfs =>
      intro _ hmem
      obtain hnew | hold := List.mem_append.1 hmem
      · exact hfs hnew
      · exact hs.tail hold

/-- A test case is added with its name. -/
theorem Sound.named_engine {e : Engine} (hs : Sound s (h, rec))
    (hu : UsesSuite s (h, rec) (.engine l name)) (hg : StaysDefined s (h, rec) (.engine l name))
    (hpoints : ∀ s n f, h.engine.adds l = some (s, n, f) → n.PointsTo name)
    (hst : Engine.Step h.engine l e) :
    List.Forall₂ NamedBy ((e.tests s).map Prod.fst) (h.namesAfter l name s) := by
  rw [Engine.step_tests hst]
  unfold namesAfter
  cases ha : h.engine.adds l with
  | none => exact hs.named
  | some q =>
      obtain ⟨t, n, f⟩ := q
      dsimp only
      by_cases hts : t = s
      · subst hts
        rw [Function.update_self, Function.update_self, List.map_append]
        obtain ⟨str, rfl⟩ := hu.2 n f ha
        obtain ⟨a, rfl⟩ := hpoints _ _ _ ha
        exact List.rel_append hs.named (.cons ⟨str, a, rfl, hg.2 str f ha, rfl⟩ .nil)
      · rw [Function.update_of_ne (Ne.symm hts), Function.update_of_ne (Ne.symm hts)]
        exact hs.named

/-- What a script hands over was not freed. -/
theorem Sound.stays_engine {e : Engine} (hs : Sound s (h, rec))
    (hvals : ∀ v ∈ l.values, h.Exists v) (hname : ∀ x, name = some x → ¬ h.collected x)
    (hst : Engine.Step h.engine l e) (y : GcThing)
    (hy : CaseUses { h with
      engine := e, slots := h.slotsAfter l, names := h.namesAfter l name } s y) :
    ¬ h.collected y := by
  cases hy with
  | func hv hx =>
      obtain hold | hnew := funcs_anew hst hv
      · exact hs.stays y (.func hold hx)
      · exact hvals _ hnew y hx
  | name hx =>
      obtain hold | hnew := names_anew hx
      · exact hs.stays y (.name hold)
      · exact hname y hnew

/-- A step of the engine. -/
theorem Sound.engine (hs : Sound s (h, rec)) (hu : UsesSuite s (h, rec) (.engine l name))
    (hg : StaysDefined s (h, rec) (.engine l name)) (hst : Step h (.engine l name) h') :
    Engine.Step h.engine l h'.engine ∧
      Sound s (h', Engine.noteRun s h.engine l h'.engine rec) := by
  obtain ⟨-, hvals, hname, hpoints, e, he, rfl⟩ := hst
  refine ⟨he, ?_⟩
  exact {
    inStep := Engine.step_inStep hs.inStep hu.1 he
    tail := Engine.step_tail_defined he hs.tail
    goesOn := hs.goesOn_engine hg he
    named := hs.named_engine hu hg hpoints he
    stays := hs.stays_engine hvals hname he }

/-- Reading or deleting a property, or another change of the graph. -/
theorem Sound.of_eq (hs : Sound s (h, rec)) (he : h'.engine = h.engine)
    (hn : h'.names = h.names) (hc : h'.collected = h.collected) : Sound s (h', rec) := by
  have huses : ∀ y, h'.CaseUses s y → h.CaseUses s y := by
    intro y hy
    cases hy with
    | func hv hx => exact .func (he ▸ hv) hx
    | name hx => exact .name (hn ▸ hx)
  obtain ⟨hstep, htail, hgoes, hnamed, hstays⟩ := hs
  dsimp only at hstep htail hgoes hnamed hstays
  rw [← he] at hstep htail hgoes hnamed
  rw [← hn] at hnamed
  refine ⟨hstep, htail, hgoes, hnamed, fun y hy => ?_⟩
  dsimp only
  rw [hc]
  exact hstays y (huses y hy)

/-- Nothing has happened. -/
theorem start_sound : Sound s (start, .empty) where
  inStep := ⟨rfl, fun _ _ hmem => by cases hmem⟩
  tail := List.not_mem_nil
  goesOn _ := List.not_mem_nil
  named := .nil
  stays y hy := by
    cases hy with
    | func hv _ => cases hv
    | name hx => cases hx

/-- In every run whose steps meet a condition, the cases of the suite run as they should. -/
def CasesRunUnder (s : ObjId) (G : Heap × TestRecord → HeapLabel → Prop) : Prop :=
  ∀ ls x l y, Run (Guarded G (Recorded (noteTests s) Step)) (start, .empty) ls x →
    Guarded G (Recorded (noteTests s) Step) x l y → RunsCases s x l y

/-- With a stronger condition there are fewer runs. -/
theorem CasesRunUnder.mono {G G' : Heap × TestRecord → HeapLabel → Prop}
    (hle : ∀ x l, G' x l → G x l) (hG : CasesRunUnder s G) : CasesRunUnder s G' := by
  intro ls x l y hrun hst
  exact hG ls x l y (hrun.mono fun _ _ _ h => ⟨hle _ _ h.1, h.2⟩) ⟨hle x l hst.1, hst.2⟩

end

end Heap

end ProntoScript
