/-
# What the collector sees

The collector of the engine marks from the roots along the slots of objects.  The private
data of the sockets and of the test suites are no slots, and none of the three classes has
a mark hook: a handler or a test case does not keep alive what it uses.

What keeps a handler alive is the copy in the slot of the property.  `js_SetProperty`
(`js/src/jsobj.c`, lines 3111-3317) makes an own property of the socket when the one of
the prototype is assigned to, calls the set hook, which stores functions only, and stores
the value in the slot whatever the hook did.  `js_GetProperty` (lines 3020-3143) stores
what the get hook answers in the slot of the object the property was found in.  So the two
copies part when something else than a function is assigned, when the own property is
deleted, or when another object inherits it and is read.  Functions and names of test
cases have no second copy.

`Heap` is the engine with the slots and the rest of the object graph, which is up to the
script; `Heap.structs_rooted_iff` says in which runs what the private data use is reachable.
-/

import ProntoScript.Foundation.Tracing
import ProntoScript.System.Engine
import ProntoScript.System.Handlers

namespace ProntoScript

open Transition (Run Guarded Keeping Recorded)

/-- What the collector manages: objects, functions among them, and the cells of strings
and doubles. -/
inductive GcThing
  | object (o : ObjId)
  | cell (a : ℕ)
deriving DecidableEq

/-- The object a value points to.  Which cell a string or a double has is not said. -/
def JSVal.thing? : JSVal → Option GcThing
  | .object o => some (.object o)
  | .function f => some (.object f)
  | _ => none

/-- What the word of a name points to, if to anything the collector manages:
`JSVAL_TO_STRING` drops the tag of whatever it is given. -/
def TestName.PointsTo (thing : Option GcThing) : TestName → Prop
  | .ofValue (.string _) | .ofValue (.double _) => ∃ a, thing = some (.cell a)
  | .ofValue v => thing = v.thing?
  | .uninitialised => True

/-! ### What the steps of the engine store -/

/-- The functions of the test cases. -/
def JSUnitSuite.funcs (suite : JSUnitSuite) : List JSVal := suite.cases.map JSUnitTestCase.func

/-- What `add` was given for each test case: its name and its function. -/
def JSUnitSuite.tests (suite : JSUnitSuite) : List (TestName × JSVal) :=
  suite.cases.map fun c => (c.name, c.func)

/-- The values of a call of a script, the object first. -/
def ScriptCall.values (c : ScriptCall) : List JSVal :=
  .object c.obj :: match c with
    | newTCPSocket _ argv _ | newUDPSocket _ argv _ | connect _ argv _ | read _ argv _ _
    | write _ argv _ | udpSend _ argv _ => argv
    | setTCPSocket _ _ vp | setUDPSocket _ _ vp => [vp]
    | close _ | udpClose _ => []

/-- The values a script has in its hands. -/
def EngineLabel.values : EngineLabel → List JSVal
  | .op (.socket c) => c.values
  | .op (.newJSUnit s _) | .op (.run s) => [.object s]
  | .op (.add s argv _) | .op (.assert s argv) => .object s :: argv
  | _ => []

/-- The handler property a step assigns to, with the value. -/
def EngineLabel.assigns : EngineLabel → Option (ObjId × Handler × JSVal)
  | .op (.socket c) => c.assigns
  | _ => none

namespace Engine

/-- The functions of the test cases of an object. -/
def funcs (e : Engine) (s : ObjId) : List JSVal :=
  match e.suites s with
  | none => []
  | some suite => suite.funcs

/-- The names and functions of the test cases of an object. -/
def tests (e : Engine) (s : ObjId) : List (TestName × JSVal) :=
  match e.suites s with
  | none => []
  | some suite => suite.tests

/-- The test case a step adds: its suite, its name and its function. -/
def adds (e : Engine) : EngineLabel → Option (ObjId × TestName × JSVal)
  | .op (.add s argv mem) =>
      if (e.suites s).isSome && mem then (jsunitAddArgs argv).toOption.map fun q => (s, q) else none
  | _ => none

/-- The engine is using it: the object and the function of a handler that is running, a
suite that is, and its test function. -/
def Holds (e : Engine) (x : GcThing) : Prop :=
  ∃ f ∈ e.stack, match f with
    | .handler d inv => x = .object d.obj ∨ inv.func.thing? = some x
    | .run s i inTest =>
        x = .object s ∨ inTest = true ∧ ∃ v, (e.funcs s)[i]? = some v ∧ v.thing? = some x
    | _ => False

/-- The object has private data. -/
def hasData (e : Engine) (o : ObjId) : Bool := e.proc.isLive o || (e.suites o).isSome

/-- The finaliser of an object: `TCPSocket_DT`, `UDPSocket_DT` or `JSUnit_DT`. -/
def dispose (e : Engine) (o : ObjId) : Engine :=
  { e with
    proc :=
      if e.proc.isLive o then
        if e.proc.isTcp o then tcpSocketDT e.proc o else udpSocketDT e.proc o
      else e.proc
    suites := Function.update e.suites o none }

end Engine

section

variable {suite : JSUnitSuite} {i : ℕ} {argv : List JSVal}

/-- The functions of a suite are those of its test cases. -/
theorem JSUnitSuite.funcs_eq : suite.funcs = suite.tests.map Prod.snd := by
  rw [JSUnitSuite.tests, List.map_map]
  rfl

/-- A result says nothing about name and function. -/
theorem tests_setResult {result : TestResult} : (suite.setResult i result).tests = suite.tests := by
  refine List.ext_getElem? fun j => ?_
  rw [JSUnitSuite.tests, JSUnitSuite.tests, List.getElem?_map, List.getElem?_map,
    getElem?_setResult]
  split_ifs
  · cases suite.cases[j]? <;> rfl
  · rfl

/-- A result is not a function. -/
theorem funcs_setResult {result : TestResult} : (suite.setResult i result).funcs = suite.funcs := by
  rw [JSUnitSuite.funcs_eq, JSUnitSuite.funcs_eq, tests_setResult]

/-- Starting a case changes its result and the current one only. -/
theorem tests_startCase : (suite.startCase i).tests = suite.tests := tests_setResult

/-- Starting a case adds no function. -/
theorem funcs_startCase : (suite.startCase i).funcs = suite.funcs := funcs_setResult

/-- The result of a case is no part of what it runs. -/
theorem tests_endCase {ok : Bool} : (suite.endCase i ok).tests = suite.tests := by
  unfold JSUnitSuite.endCase
  split_ifs
  · rfl
  · exact tests_setResult

/-- `assert` adds no test case. -/
theorem tests_jsunitAssert {suite' : JSUnitSuite} {r : JSUnitReturn}
    (h : jsunitAssert suite argv = .returned suite' r) : suite'.tests = suite.tests := by
  unfold jsunitAssert at h
  split at h
  · split at h
    · cases h
    · cases h
      rfl
    · split at h
      · cases h
      · cases h
        exact tests_setResult
  · cases h
    rfl

/-- `add` appends a test case, if it accepts its arguments and there is memory. Source:
`JSUnit_Add`, lines 263-278 of `js/src/ext/jsunit.c`. -/
theorem tests_jsunitAdd {mem : Bool} : (jsunitAdd suite argv mem).1.tests =
    suite.tests ++ if mem then (jsunitAddArgs argv).toOption.toList else [] := by
  unfold jsunitAdd
  split
  · rename_i herr
    rw [herr]
    cases mem <;> exact (List.append_nil _).symm
  · rename_i hok
    rw [hok]
    cases mem with
    | false => exact (List.append_nil _).symm
    | true => exact List.map_append

/-- The function of a new test case is one of the arguments. -/
theorem func_mem_of_jsunitAddArgs {n : TestName} {f : JSVal}
    (h : jsunitAddArgs argv = .ok (n, f)) : f ∈ argv := by
  unfold jsunitAddArgs at h
  split at h
  · cases h
  · split_ifs at h
    cases h
    simp
  · split_ifs at h
    cases h
    simp

end

namespace Engine

section

variable {e e' : Engine} {l : EngineLabel} {s : ObjId}

/-- What adds a test case is a call of `add` with a name and a function. -/
theorem adds_eq {n : TestName} {f : JSVal} (h : e.adds l = some (s, n, f)) :
    ∃ argv mem, l = .op (.add s argv mem) ∧ jsunitAddArgs argv = .ok (n, f) := by
  unfold adds at h
  split at h
  · rename_i s' argv mem
    split_ifs at h
    obtain ⟨q, hq, heq⟩ := Option.map_eq_some_iff.1 h
    cases heq
    cases hargs : jsunitAddArgs argv with
    | error err =>
        rw [hargs] at hq
        cases hq
    | ok q =>
        rw [hargs] at hq
        cases hq
        exact ⟨argv, mem, rfl, hargs⟩
  · cases h

/-- The functions of a suite in the engine are those of its test cases. -/
theorem funcs_eq : e.funcs s = (e.tests s).map Prod.snd := by
  unfold funcs tests
  cases e.suites s with
  | none => rfl
  | some suite => exact suite.funcs_eq

/-- The test cases depend on the suites only. -/
theorem tests_of_suites (h : e'.suites = e.suites) : e'.tests = e.tests := by
  funext s
  rw [tests, h]
  rfl

/-- Storing a suite. -/
theorem tests_setSuite_eq {suite : JSUnitSuite} :
    (e.setSuite s suite).tests = Function.update e.tests s suite.tests := by
  funext t
  by_cases ht : t = s
  · subst ht
    rw [tests, setSuite_self, Function.update_self]
  · rw [tests, setSuite_ne _ _ ht, Function.update_of_ne ht]
    rfl

/-- A suite is stored again, with the same names and functions. -/
theorem tests_setSuite {suite suite' : JSUnitSuite} (hs : e.suites s = some suite)
    (hf : suite'.tests = suite.tests) : (e.setSuite s suite').tests = e.tests := by
  have hself : e.tests s = suite.tests := by
    rw [tests, hs]
  rw [tests_setSuite_eq, hf, ← hself, Function.update_eq_self]

/-- A new suite has no test cases. -/
theorem op_newJSUnit_tests {mem : Bool} (h : e.op (.newJSUnit s mem) = some e') :
    e'.tests = e.tests := by
  dsimp only [op] at h
  split_ifs at h with hnew
  cases h
  funext t
  dsimp only [tests]
  by_cases ht : t = s
  · subst ht
    rw [Function.update_self, hnew]
    cases mem <;> rfl
  · rw [Function.update_of_ne ht]

/-- What `add` does to the test cases of every suite. -/
theorem op_add_tests {argv : List JSVal} {mem : Bool} (h : e.op (.add s argv mem) = some e') :
    e'.tests = match e.adds (.op (.add s argv mem)) with
      | some (s, q) => Function.update e.tests s (e.tests s ++ [q])
      | none => e.tests := by
  dsimp only [op, adds] at h ⊢
  cases hs : e.suites s with
  | none =>
      rw [hs] at h
      cases h
      rfl
  | some suite =>
      rw [hs] at h
      cases h
      have hself : e.tests s = suite.tests := by
        rw [tests, hs]
      rw [tests_of_suites (settle_suites ..), tests_setSuite_eq, tests_jsunitAdd, ← hself]
      cases mem with
      | false => simp
      | true => cases hargs : jsunitAddArgs argv <;> simp [Except.toOption]

/-- What `assert` does to them: nothing. -/
theorem op_assert_tests {argv : List JSVal} (h : e.op (.assert s argv) = some e') :
    e'.tests = e.tests := by
  dsimp only [op, assert] at h
  cases hs : e.suites s with
  | none =>
      rw [hs] at h
      cases h
      rfl
  | some suite =>
      rw [hs] at h
      cases h
      show tests _ = tests e
      split
      · rename_i hret
        exact (tests_of_suites (settle_suites ..)).trans
          (tests_setSuite hs (tests_jsunitAssert hret))
      · rfl
      · rfl

/-- **What a call of a script does to the test cases**: a call of `add` that is accepted
appends one, and nothing else changes any. -/
theorem op_tests {o : ScriptOp} (h : e.op o = some e') : e'.tests = match e.adds (.op o) with
    | some (s, q) => Function.update e.tests s (e.tests s ++ [q])
    | none => e.tests := by
  cases o with
  | socket c =>
      obtain ⟨q, -, rfl⟩ := Option.map_eq_some_iff.1 h
      exact tests_of_suites (settle_suites ..)
  | systemInclude found =>
      cases h
      rcases found with _ | _ | _ | newLock
      · rfl
      · rfl
      · rfl
      · exact tests_of_suites (enterScript_suites ..)
  | execute newLock =>
      cases h
      exact tests_of_suites (enterScript_suites ..)
  | newJSUnit s mem => exact op_newJSUnit_tests h
  | add s argv mem => exact op_add_tests h
  | assert s argv => exact op_assert_tests h
  | run s =>
      dsimp only [op] at h
      split at h <;> cases h <;> rfl
  | _ =>
      cases h
      rfl

/-- **Only `add` changes the names and functions of the test cases.** -/
theorem step_tests (h : Step e l e') : e'.tests = match e.adds l with
    | some (s, q) => Function.update e.tests s (e.tests s ++ [q])
    | none => e.tests := by
  cases l with
  | process file =>
      obtain ⟨-, rfl⟩ := step_process h
      cases file with
      | compiles newLock => exact tests_of_suites (enterScript_suites ..)
      | _ => rfl
  | op o => exact op_tests (step_op h).2
  | caught =>
      obtain ⟨-, -, rfl⟩ := step_caught h
      rfl
  | ended =>
      obtain ⟨caller, rest, -, ⟨-, rfl⟩ | ⟨-, rfl⟩⟩ | ⟨d, inv, rest, -, rfl⟩ |
        ⟨s, i, rest, suite, -, hs, rfl⟩ := step_ended h
      · cases caller <;> rfl
      · rfl
      · rfl
      · exact tests_setSuite (e := { e with stack := _, failing := _ }) hs tests_endCase
  | handleSelect a =>
      obtain ⟨-, loop, rest, -, -, ⟨-, rfl⟩ | ⟨reg, pending, -, rfl⟩⟩ := step_handleSelect h
      · rfl
      · rfl
  | dispatch r =>
      obtain ⟨-, d, pending, rest, p, exit, -, -, -, rfl⟩ := step_dispatch h
      exact tests_of_suites (callback_suites ..)
  | passed =>
      obtain ⟨-, rest, -, rfl⟩ := step_passed h
      rfl
  | nextTest =>
      obtain ⟨-, s, i, rest, suite, -, hs, ⟨-, rfl⟩ | ⟨-, rfl⟩⟩ := step_nextTest h
      · exact tests_setSuite (e := { e with stack := _ }) hs tests_startCase
      · exact tests_of_suites (settle_suites ..)
  | finalise o =>
      obtain ⟨-, rfl⟩ := step_finalise h
      rfl

/-- The same of the functions alone. -/
theorem step_funcs (h : Step e l e') : e'.funcs = match e.adds l with
    | some (s, _, f) => Function.update e.funcs s (e.funcs s ++ [f])
    | none => e.funcs := by
  have htests := step_tests h
  funext t
  rw [funcs_eq, htests]
  cases e.adds l with
  | none => exact funcs_eq.symm
  | some q =>
      obtain ⟨s, n, f⟩ := q
      dsimp only
      by_cases ht : t = s
      · subst ht
        rw [Function.update_self, Function.update_self, funcs_eq, List.map_append]
        rfl
      · rw [Function.update_of_ne ht, Function.update_of_ne ht, funcs_eq]

end

end Engine

/-! ### The object graph -/

/-- The engine; the slots of the own handler properties of the sockets; what the names of
the test cases point to; the roots and the other edges of the object graph, those of the
prototypes among them; and what the collector has freed. -/
structure Heap where
  engine : Engine
  slots : ObjId → Handler → Option JSVal
  names : ObjId → List (Option GcThing)
  roots : GcThing → Prop
  refs : GcThing → GcThing → Prop
  collected : GcThing → Prop

/-- What can happen next: a step of the engine, with what the name of an added test case
points to; reading a handler property, found in an object; deleting an own one, or
defining another in its place; anything else a script does to the graph; and a collection,
with the objects it finalises in this order. -/
inductive HeapLabel
  | engine (l : EngineLabel) (name : Option GcThing)
  | read (o holder : ObjId) (k : Handler)
  | delete (o : ObjId) (k : Handler)
  | mutate (roots : GcThing → Prop) (refs : GcThing → GcThing → Prop)
  | gc (os : List ObjId)

/-- What the get hook of the class of the holder makes of a value, called on an object. -/
def Process.getHandler (p : Process) (o holder : ObjId) (k : Handler) (vp : JSVal) : JSVal :=
  if p.isTcp holder then tcpSocketGetProperty p o (.handler k) vp
  else if p.isUdp holder then
    match k with
    | .onData => udpSocketGetProperty p o .onData vp
    | .onIOError => udpSocketGetProperty p o .onIOError vp
    | _ => vp
  else vp

namespace Heap

/-- Nothing has happened. -/
def start : Heap :=
  ⟨.start, fun _ _ => none, fun _ => [], fun _ => False, fun _ _ => False, fun _ => False⟩

/-- What the private data of an object use: the functions stored for the handlers, and the
functions and names of the test cases. -/
inductive Uses (h : Heap) (o : ObjId) : GcThing → Prop
  | handler {k : Handler} {f : ℕ} (hf : h.engine.proc.handlers o k = some f) : Uses h o (.object f)
  | func {v : JSVal} {x : GcThing} (hv : v ∈ h.engine.funcs o) (hx : v.thing? = some x) : Uses h o x
  | name {x : GcThing} (hx : some x ∈ h.names o) : Uses h o x

/-- What the collector sees, and what it does not. -/
def tracing (h : Heap) : Tracing GcThing where
  root x := h.roots x ∨ h.engine.Holds x
  edge x y := h.refs x y ∨
    ∃ o k v, x = .object o ∧ h.slots o k = some v ∧ v.thing? = some y
  uses x y := ∃ o, x = .object o ∧ h.Uses o y
  freed := h.collected

/-- The collector marks it. -/
def Reachable (h : Heap) (x : GcThing) : Prop := h.tracing.Reachable x

/-- What the private data of a reachable object use is reachable, and what private data
use has not been freed. -/
def Rooted (h : Heap) : Prop := h.tracing.Traced ∧ h.tracing.Safe

/-- The value is not one of something freed. -/
def Exists (h : Heap) (v : JSVal) : Prop := ∀ x, v.thing? = some x → ¬ h.collected x

/-- The own property has been assigned to. -/
def slotsAfter (h : Heap) (l : EngineLabel) : ObjId → Handler → Option JSVal :=
  match l.assigns with
  | some (o, k, v) => setAt h.slots o k (some v)
  | none => h.slots

/-- The test case has been added. -/
def namesAfter (h : Heap) (l : EngineLabel) (name : Option GcThing) : ObjId → List (Option GcThing) :=
  match h.engine.adds l with
  | some (s, _, _) => Function.update h.names s (h.names s ++ [name])
  | none => h.names

/-- The steps.  A script has only what was not freed in its hands, and the collector
finalises what has private data and is not reachable. -/
def Step (h : Heap) (l : HeapLabel) (h' : Heap) : Prop :=
  match l with
  | .engine l name =>
      (∀ o, l ≠ .finalise o) ∧ (∀ v ∈ l.values, h.Exists v) ∧
        (∀ x, name = some x → ¬ h.collected x) ∧
        (∀ s n f, h.engine.adds l = some (s, n, f) → n.PointsTo name) ∧
        ∃ e, Engine.Step h.engine l e ∧
          h' = { h with engine := e, slots := h.slotsAfter l, names := h.namesAfter l name }
  | .read o holder k =>
      ∃ v, h.slots holder k = some v ∧ (holder = o ∨ h.slots o k = none) ∧
        h' = { h with
          slots := setAt h.slots holder k (some (h.engine.proc.getHandler o holder k v)) }
  | .delete o k => h' = { h with slots := setAt h.slots o k none }
  | .mutate roots refs =>
      (∀ x, roots x → ¬ h.collected x) ∧ (∀ x y, refs x y → ¬ h.collected y) ∧
        h' = { h with roots, refs }
  | .gc os =>
      (∀ o, o ∈ os ↔ h.engine.hasData o = true ∧ ¬ h.Reachable (.object o)) ∧
        h' = { h with
          engine := os.foldl Engine.dispose h.engine
          names := fun s => if s ∈ os then [] else h.names s
          collected := fun x => h.collected x ∨ ¬ h.Reachable x }

end Heap

/-! ### What scripts hand over -/

/-- What scripts have handed over to the private data of each object: the function last
assigned to a handler property, whether the slot of the property has been given up since,
and the functions and names of the test cases. -/
structure Entrusted where
  handler : ObjId → Handler → Option ℕ
  detached : ObjId → Handler → Bool
  cases : ObjId → List GcThing

namespace Entrusted

variable (r : Entrusted)

/-- A test case is added. -/
def add (s : ObjId) (f : JSVal) (name : Option GcThing) : Entrusted :=
  { r with cases := Function.update r.cases s (r.cases s ++ (f.thing?.toList ++ name.toList)) }

end Entrusted

namespace Heap

/-- What the private data use, from the record. -/
structure Attached (s : Heap × Entrusted) : Prop where
  handler : s.1.engine.proc.handlers = s.2.handler
  slot : ∀ o k f, s.2.handler o k = some f → s.2.detached o k = false →
    s.1.slots o k = some (.function f)
  cases : ∀ o x, x ∈ s.2.cases o ↔
    (∃ v ∈ s.1.engine.funcs o, v.thing? = some x) ∨ some x ∈ s.1.names o
  paired : ∀ o, (s.1.names o).length = (s.1.engine.funcs o).length

/-- The script still holds on to what it has handed over to reachable objects and what no
slot of theirs holds: the handlers whose slot was given up, and the test cases. -/
structure Kept (s : Heap × Entrusted) : Prop where
  handler : ∀ o k f, s.2.handler o k = some f → s.2.detached o k = true →
    s.1.Reachable (.object o) → s.1.Reachable (.object f)
  cases : ∀ o x, x ∈ s.2.cases o → s.1.Reachable (.object o) → s.1.Reachable x

section

variable {h h' : Heap} {r : Entrusted} {s t : Heap × Entrusted} {l : HeapLabel}

/-- A test case is recorded. -/
theorem Attached.add {o : ObjId} {f : JSVal} {name : Option GcThing} {e : Engine}
    (hs : Attached (h, r)) (hh : e.proc.handlers = h.engine.proc.handlers)
    (hf : e.funcs = Function.update h.engine.funcs o (h.engine.funcs o ++ [f])) : Attached
      ({ h with engine := e, names := Function.update h.names o (h.names o ++ [name]) },
        r.add o f name) where
  handler := hh.trans hs.handler
  slot := hs.slot
  cases o' x := by
    dsimp only [Entrusted.add]
    rw [hf]
    by_cases ho : o' = o
    · subst ho
      have hold := hs.cases o' x
      simp only [Function.update_self, List.mem_append, hold, Option.mem_toList,
        List.mem_singleton, or_and_right, exists_or, exists_eq_left, eq_comm (a := some x)]
      exact or_or_or_comm
    · simp only [Function.update_of_ne ho]
      exact hs.cases o' x
  paired o' := by
    have hold := hs.paired o'
    dsimp only at hold ⊢
    rw [hf]
    by_cases ho : o' = o
    · subst ho
      rw [Function.update_self, Function.update_self, List.length_append, List.length_append, hold]
      rfl
    · rw [Function.update_of_ne ho, Function.update_of_ne ho]
      exact hold

/-- The function that is added is one that the script passes in. -/
theorem values_of_adds {e : Engine} {l : EngineLabel} {o : ObjId} {n : TestName} {f : JSVal}
    (ha : e.adds l = some (o, n, f)) : f ∈ l.values := by
  obtain ⟨argv, mem, rfl, hargs⟩ := Engine.adds_eq ha
  exact List.mem_cons_of_mem _ (func_mem_of_jsunitAddArgs hargs)

/-- So is a test function. -/
theorem funcs_anew {l : EngineLabel} {e e' : Engine} {o : ObjId} {v : JSVal}
    (he : Engine.Step e l e') (hv : v ∈ e'.funcs o) : v ∈ e.funcs o ∨ v ∈ l.values := by
  rw [Engine.step_funcs he] at hv
  cases ha : e.adds l with
  | none =>
      rw [ha] at hv
      exact Or.inl hv
  | some q =>
      obtain ⟨o', n, f⟩ := q
      rw [ha] at hv
      dsimp only at hv
      by_cases ho : o = o'
      · subst ho
        rw [Function.update_self, List.mem_append, List.mem_singleton] at hv
        obtain hold | rfl := hv
        · exact Or.inl hold
        · exact Or.inr (values_of_adds ha)
      · rw [Function.update_of_ne ho] at hv
        exact Or.inl hv

/-- So is a name. -/
theorem names_anew {l : EngineLabel} {name : Option GcThing} {o : ObjId} {x : GcThing}
    (hx : some x ∈ h.namesAfter l name o) : some x ∈ h.names o ∨ name = some x := by
  unfold namesAfter at hx
  cases ha : h.engine.adds l with
  | none =>
      rw [ha] at hx
      exact Or.inl hx
  | some q =>
      obtain ⟨o', n, f⟩ := q
      rw [ha] at hx
      dsimp only at hx
      by_cases ho : o = o'
      · subst ho
        rw [Function.update_self, List.mem_append, List.mem_singleton] at hx
        exact hx.imp_right Eq.symm
      · rw [Function.update_of_ne ho] at hx
        exact Or.inl hx

/-- What uses something has private data. -/
theorem Attached.hasData (hs : Attached s) {o : ObjId} {x : GcThing} (hu : s.1.Uses o x) :
    s.1.engine.hasData o = true := by
  have hsuite : s.1.engine.funcs o ≠ [] → (s.1.engine.suites o).isSome = true := by
    intro hf
    unfold Engine.funcs at hf
    cases hsu : s.1.engine.suites o with
    | none =>
        rw [hsu] at hf
        exact absurd rfl hf
    | some suite => rfl
  unfold Engine.hasData
  rw [Bool.or_eq_true]
  cases hu with
  | handler hf =>
      refine Or.inl (not_not.1 fun hdead => ?_)
      rw [handlers_of_dead (by simpa using hdead)] at hf
      cases hf
  | func hv hx => exact Or.inr (hsuite (List.ne_nil_of_mem hv))
  | name hx =>
      refine Or.inr (hsuite ?_)
      have hpos := List.length_pos_of_mem hx
      rw [hs.paired] at hpos
      exact List.ne_nil_of_length_pos hpos

/-- The handler a dispatch calls was not freed. -/
theorem Rooted.dispatch {e : Engine} {r : CallbackReplies} {d : Dispatch} {inv : Invocation}
    {rest : List CallFrame} {f : ℕ} (hr : h.Rooted) (he : Engine.Step h.engine (.dispatch r) e)
    (hstack : e.stack = .handler d inv :: rest) (hf : inv.func = .function f) :
    ¬ h.collected (.object f) := by
  obtain ⟨-, d', pending, rest', p, exit, -, -, hcall, rfl⟩ := Engine.step_dispatch he
  rw [Engine.callback_stack] at hstack
  cases exit with
  | invoke inv' =>
      cases hstack
      have hstored := Dispatch.call_invoke hcall
      rw [hf] at hstored
      exact hr.2 _ _ ⟨d.obj, rfl, .handler hstored.symm⟩
  | _ => cases hstack

/-- Nor was the test function that `run` calls. -/
theorem Rooted.nextTest {e : Engine} {o : ObjId} {i : ℕ} {rest : List CallFrame} (hr : h.Rooted)
    (he : Engine.Step h.engine .nextTest e) (hold : h.engine.stack = .run o i false :: rest)
    (hnew : e.stack = .run o i true :: rest) :
    ∃ v, (e.funcs o)[i]? = some v ∧ h.Exists v := by
  have hfuncs : e.funcs = h.engine.funcs := Engine.step_funcs he
  rw [hfuncs]
  obtain ⟨-, o', i', rest', suite, hstack, hsuite, ⟨hi, -⟩ | ⟨-, rfl⟩⟩ := Engine.step_nextTest he
  · rw [hold] at hstack
    cases hstack
    have hself : h.engine.funcs o = suite.funcs := by
      rw [Engine.funcs, hsuite]
    have hlt : i < (h.engine.funcs o).length := by
      rw [hself, JSUnitSuite.funcs, List.length_map]
      exact hi
    refine ⟨_, List.getElem?_eq_getElem hlt, fun x hx => ?_⟩
    exact hr.2 _ _ ⟨o, rfl, .func (List.getElem_mem hlt) hx⟩
  · rw [hold] at hstack
    cases hstack
    rw [Engine.settle_stack] at hnew
    have hlen := congrArg List.length hnew
    dsimp only [List.length_cons] at hlen
    omega

end

end Heap

end ProntoScript
