/-
# Scripts, exceptions and test suites

The engine around the sockets: `Process` (`js/src/js.c`, lines 167-231) runs a script
file with `js_Execute` (`js/src/jsinterp.c`, lines 1348-1467), which makes the lock of
the select events, interprets the script, handles events until none are left and
destroys the lock.  `System.include` (`js/src/ext/pssystem.c`, lines 63-104) calls
`Process` from a running script, `eval` and `load` call `js_Execute`, and JSUnit's
`run` (`js/src/ext/jsunit.c`, lines 479-548) calls the functions of its test cases.

A native function that fails with an error leaves it in the context as the pending
exception and returns `JS_FALSE`, which ends the calls around it up to a `try`.  Both
can come apart: a function may return `JS_TRUE` and leave an exception pending, or
return `JS_FALSE` without one, as `quit` does.  The exception stays pending until a
script catches it or `JS_ExecuteScript` reports it, which it does only where it fails
with no frame active (`LAST_FRAME_CHECKS`, `js/src/jsapi.c`, lines 3697-3704).

The sockets behave as in `World`; `Engine.world` forgets the rest, and a run of the
engine is one of the world (`Engine.run_world`).  The interactive prompt, the printing
of test results and the memory of suites that are collected are left out.
-/

import ProntoScript.JSUnit.Suite
import ProntoScript.System.World

namespace ProntoScript

open Transition (Run)

/-- Who called `js_Execute`: `JS_ExecuteScript` with no frame active, `System.include`,
or another native function. -/
inductive ExecuteCaller
  | toplevel
  | included
  | native
deriving DecidableEq, Repr

/-- What the engine is in the middle of.  `undefined` stands on a stack whose next step
the C standard leaves open. -/
inductive CallFrame
  | script (caller : ExecuteCaller)
  | draining (caller : ExecuteCaller)
  | events
  | pass (pending : List Dispatch)
  | handler (d : Dispatch) (inv : Invocation)
  | run (suite : ObjId) (i : ℕ) (inTest : Bool)
  | undefined
deriving DecidableEq

/-- A pending exception, with whether it was raised while a handler or a test function
was running. -/
structure Raised where
  async : Bool
deriving DecidableEq, Repr

/-- How `Process` fares with a script file: with `JS_NEW_LOCK`, should it be called. -/
inductive ScriptFile
  | cannotOpen
  | doesNotCompile
  | compiles (newLock : Bool)
deriving DecidableEq, Repr

/-- What a running script does. -/
inductive ScriptOp
  | throw
  | fail (exitCode : Option ℤ)
  | socket (c : ScriptCall)
  | systemInclude (file : Option ScriptFile)
  | execute (newLock : Bool)
  | newJSUnit (suite : ObjId) (mem : Bool)
  | add (suite : ObjId) (argv : List JSVal) (mem : Bool)
  | assert (suite : ObjId) (argv : List JSVal)
  | events
  | run (suite : ObjId)
deriving DecidableEq

/-- What can happen next. -/
inductive EngineLabel
  | process (file : ScriptFile)
  | op (o : ScriptOp)
  | caught
  | ended
  | handleSelect (a : SelectAnswer)
  | dispatch (r : CallbackReplies)
  | passed
  | nextTest
  | finalise (obj : ObjId)
deriving DecidableEq

/-- The process of the sockets, `ps_EventsLock`, the suites, the frames, the pending
exception, whether the innermost call is on its way out with `JS_FALSE`, `gExitCode`, how
often the error reporter was called, and what happened to the `TCPSocket`s. -/
structure Engine where
  proc : Process
  psEventsLock : Bool
  suites : ObjId → Option JSUnitSuite
  stack : List CallFrame
  pending : Option Raised
  failing : Bool
  exitCode : ℤ
  reports : ℕ
  events : List TcpEvent

namespace CallFrame

/-- A script is running: that of a `js_Execute`, a handler or a test function. -/
def isScript : CallFrame → Bool
  | .script _ => true
  | .handler _ inv => inv.func.isFunction
  | .run _ _ inTest => inTest
  | _ => false

/-- A loop around `ps_HandleSelect`. -/
def isLoop : CallFrame → Bool
  | .draining _ | .events => true
  | _ => false

/-- The call of a handler or a test function. -/
def isAsync : CallFrame → Bool
  | .handler _ _ => true
  | .run _ _ inTest => inTest
  | _ => false

/-- The call of a handler of the object. -/
def isHandlerOf (o : ObjId) : CallFrame → Bool
  | .handler d _ => d.obj == o
  | _ => false

end CallFrame

/-- What a call of a script on a socket returns. -/
def ScriptCall.result (p : Process) : ScriptCall → Native
  | newTCPSocket obj argv mem => (tcpSocketCT p obj argv mem).2
  | newUDPSocket obj argv r => ((udpSocketCT p obj argv r).map Prod.snd).getD (.error none)
  | setTCPSocket _ _ _ | setUDPSocket _ _ _ => .ok .void
  | connect obj argv r => (tcpSocketConnect p obj argv r).2
  | close obj => (tcpSocketClose p obj).2
  | read obj argv stray replies =>
      ((tcpSocketRead p obj argv stray replies).map Prod.snd).getD (.error none)
  | write obj argv sent => (tcpSocketWrite p obj argv sent).2
  | udpClose obj => (udpSocketClose p obj).2
  | udpSend obj argv r => (udpSocketSend p obj argv r).2

/-- The frame a callback leaves: the call of its handler, if it made one. -/
def Dispatch.push (d : Dispatch) : CallbackExit → List CallFrame
  | .invoke inv => [.handler d inv]
  | _ => []

namespace Engine

/-- `EXITCODE_RUNTIME_ERROR`. -/
def EXITCODE_RUNTIME_ERROR : ℤ := 3

/-- `EXITCODE_FILE_NOT_FOUND`. -/
def EXITCODE_FILE_NOT_FOUND : ℤ := 4

/-- Nothing has happened. -/
def start : Engine := ⟨.start, false, fun _ => none, [], none, false, 0, 0, []⟩

section

variable (e : Engine)

/-- A handler or a test function is running. -/
def inAsync : Bool := e.stack.any CallFrame.isAsync

/-- The innermost frame is a running script. -/
def scriptRuns : Bool := !e.failing && (e.stack.head?.map CallFrame.isScript).getD false

/-- The innermost call is on its way out with an exception. -/
def raises : Bool := e.failing && e.pending.isSome

/-- Leave a new exception pending, and return `JS_TRUE`. -/
def post : Engine := { e with pending := some ⟨e.inAsync⟩ }

/-- Leave a new exception pending, and return `JS_FALSE`. -/
def raise : Engine := { e.post with failing := true }

/-- A native function returns. -/
def settle {ε α : Type} : Except (Option ε) α → Engine
  | .ok _ => e
  | .error none => { e with failing := true }
  | .error (some _) => e.raise

/-- Store a suite. -/
def setSuite (s : ObjId) (suite : JSUnitSuite) : Engine :=
  { e with suites := Function.update e.suites s (some suite) }

/-- `js_Execute` up to the interpretation: without a lock it returns at once and leaves
`cx->fp` and the dormant frames at its own frame, which is gone. Source: lines 1347-1468
of `js/src/jsinterp.c`. -/
def enterScript (caller : ExecuteCaller) (newLock : Bool) : Engine :=
  if e.psEventsLock || newLock then
    { e with psEventsLock := true, stack := .script caller :: e.stack }
  else { e with stack := .undefined :: e.stack }

/-- `Process` with no frame active: errors are reported at once, and a failed compilation
reports a pending exception as well. Source: lines 167-276 of `js/src/js.c`. -/
def process : ScriptFile → Engine
  | .cannotOpen => { e with exitCode := EXITCODE_FILE_NOT_FOUND, reports := e.reports + 1 }
  | .doesNotCompile =>
      { e with
        pending := none, exitCode := EXITCODE_RUNTIME_ERROR,
        reports := e.reports + 1 + if e.pending.isSome then 1 else 0 }
  | .compiles newLock => e.enterScript .toplevel newLock

/-- `System_Include`, for a file that `stat` did not find, or one that it did. Source:
lines 62-104 of `js/src/ext/pssystem.c`. -/
def systemInclude : Option ScriptFile → Engine
  | none => e.raise
  | some .cannotOpen => { e.post with exitCode := EXITCODE_FILE_NOT_FOUND }
  | some .doesNotCompile => e.post
  | some (.compiles newLock) => e.enterScript .included newLock

/-- `JSUnit_Assert`, with the suite it is called on. -/
def assert (s : ObjId) (suite : JSUnitSuite) (argv : List JSVal) : Engine :=
  match jsunitAssert suite argv with
  | .returned suite r => (e.setSuite s suite).settle r
  | .nullWrite | .nullRead => { e with stack := .undefined :: e.stack }

/-- What the running script does; methods of JSUnit on an object without a suite fail
without an error. -/
def op : ScriptOp → Option Engine
  | .throw => some e.raise
  | .fail code => some { e with failing := true, exitCode := code.getD e.exitCode }
  | .socket c => (c.exec e.proc).map fun q =>
      Engine.settle { e with proc := q.1, events := q.2 ++ e.events } (c.result e.proc)
  | .systemInclude file => some (e.systemInclude file)
  | .execute newLock => some (e.enterScript .native newLock)
  | .newJSUnit s mem =>
      if e.suites s = none then
        some { e with suites := Function.update e.suites s (jsunitNew mem) }
      else none
  | .add s argv mem =>
      match e.suites s with
      | none => some { e with failing := true }
      | some suite => some ((e.setSuite s (jsunitAdd suite argv mem).1).settle
          (jsunitAdd suite argv mem).2)
  | .assert s argv =>
      match e.suites s with
      | none => some { e with failing := true }
      | some suite => some (e.assert s suite argv)
  | .events => some { e with stack := .events :: e.stack }
  | .run s =>
      match e.suites s with
      | none => some { e with failing := true }
      | some _ => some { e with stack := .run s 0 false :: e.stack }

/-- The interpretation of a script failed, and `js_Execute` with it: with no frame
active a pending exception is reported; `System.include` returns `JS_TRUE` whatever
`Process` did; another native function fails. -/
def failScript (caller : ExecuteCaller) (rest : List CallFrame) : Engine :=
  match caller with
  | .toplevel =>
      { e with
        stack := rest, failing := false, pending := none,
        exitCode := if e.pending.isSome then EXITCODE_RUNTIME_ERROR else e.exitCode,
        reports := if e.pending.isSome then e.reports + 1 else e.reports }
  | .included => { e with stack := rest, failing := false }
  | .native => { e with stack := rest }

/-- The innermost script is over.  What the call of a handler returns is dropped; a test
case fails with the call of its function. -/
def ended : Option Engine :=
  match e.stack with
  | .script caller :: rest =>
      some (if e.failing then e.failScript caller rest
        else { e with stack := .draining caller :: rest })
  | .handler d _ :: rest =>
      some { e with proc := d.finish e.proc, stack := rest, failing := false }
  | .run s i true :: rest =>
      (e.suites s).map fun suite => Engine.setSuite
        { e with stack := .run s (i + 1) false :: rest, failing := false } s
        (suite.endCase i (!e.failing))
  | _ => none

/-- No events are left: `events()` returns, and `js_Execute` after `ps_DestroySelect`.
Source: `JSUnit_Events`, lines 425-431 of `js/src/ext/jsunit.c`. -/
def leaveLoop (loop : CallFrame) (rest : List CallFrame) : Engine :=
  { e with psEventsLock := if loop = .events then e.psEventsLock else false, stack := rest }

/-- `ps_HandleSelect` up to the calls of the callbacks. -/
def handleSelect (a : SelectAnswer) : Option Engine :=
  match e.stack with
  | loop :: rest =>
      if loop.isLoop then
        match psHandleSelect e.proc.registry a with
        | none => some (e.leaveLoop loop rest)
        | some (reg, pending) =>
            some { e with
              proc := { e.proc with registry := reg }, stack := .pass pending :: loop :: rest }
      else none
  | [] => none

/-- The exception a callback leaves behind: the call of what is not a function raises
one, an error report of the callback leaves one pending. -/
def callback : CallbackExit → Engine
  | .invoke inv => if inv.func.isFunction then e else e.raise
  | .silent => e
  | .reported _ => e.post

/-- The next copy is dispatched, up to the call of the handler. -/
def dispatch (r : CallbackReplies) : Option Engine :=
  match e.stack with
  | .pass (d :: pending) :: rest =>
      if e.proc.isLive d.obj then
        (d.call e.proc r).map fun q => Engine.callback
          { e with
            proc := q.1, stack := d.push q.2 ++ .pass pending :: rest,
            events := d.event q.2 ++ e.events } q.2
      else none
  | _ => none

/-- `run` starts the next test case or, after the last one, returns its verdict. Source:
`JSUnit_Run`, lines 479-548 of `js/src/ext/jsunit.c`. -/
def nextTest : Option Engine :=
  match e.stack with
  | .run s i false :: rest =>
      (e.suites s).map fun suite =>
        if i < suite.cases.length then
          Engine.setSuite { e with stack := .run s i true :: rest } s (suite.startCase i)
        else Engine.settle { e with stack := rest } suite.verdict
  | _ => none

/-- The next step; `none` where the label does not fit. -/
def step : EngineLabel → Option Engine
  | .process file => if e.stack = [] then some (e.process file) else none
  | .op o => if e.scriptRuns then e.op o else none
  | .caught =>
      if e.raises && (e.stack.head?.map CallFrame.isScript).getD false then
        some { e with pending := none, failing := false }
      else none
  | .ended => e.ended
  | .handleSelect a => if e.failing then none else e.handleSelect a
  | .dispatch r => if e.failing then none else e.dispatch r
  | .passed =>
      match e.stack with
      | .pass [] :: rest => if e.failing then none else some { e with stack := rest }
      | _ => none
  | .nextTest => if e.failing then none else e.nextTest
  | .finalise o =>
      if e.proc.isLive o ∧ e.stack.any (CallFrame.isHandlerOf o) = false then
        some { e with
          proc := if e.proc.isTcp o then tcpSocketDT e.proc o else udpSocketDT e.proc o }
      else none

end

/-- The steps as a relation. -/
def Step (e : Engine) (l : EngineLabel) (e' : Engine) : Prop := e.step l = some e'

/-- Running the labels one after the other gives a run. -/
theorem run_of_foldlM {e e' : Engine} {ls : List EngineLabel} (h : ls.foldlM step e = some e') :
    Run Step e ls e' :=
  Run.of_foldlM h

/-! ### What a native function leaves when it returns -/

section Settle

variable {ε α : Type} (e : Engine) (r : Except (Option ε) α)

@[simp] theorem settle_proc : (e.settle r).proc = e.proc := by
  rcases r with (_ | _) | _ <;> rfl

@[simp] theorem settle_psEventsLock : (e.settle r).psEventsLock = e.psEventsLock := by
  rcases r with (_ | _) | _ <;> rfl

@[simp] theorem settle_suites : (e.settle r).suites = e.suites := by
  rcases r with (_ | _) | _ <;> rfl

@[simp] theorem settle_stack : (e.settle r).stack = e.stack := by
  rcases r with (_ | _) | _ <;> rfl

@[simp] theorem settle_events : (e.settle r).events = e.events := by
  rcases r with (_ | _) | _ <;> rfl

end Settle

@[simp] theorem setSuite_self (e : Engine) (s : ObjId) (suite : JSUnitSuite) :
    (e.setSuite s suite).suites s = some suite := Function.update_self ..

/-- The other suites are as they were. -/
theorem setSuite_ne (e : Engine) {s t : ObjId} (suite : JSUnitSuite) (h : t ≠ s) :
    (e.setSuite s suite).suites t = e.suites t := Function.update_of_ne h ..

@[simp] theorem enterScript_proc (e : Engine) (caller : ExecuteCaller) (newLock : Bool) :
    (e.enterScript caller newLock).proc = e.proc := by
  unfold enterScript
  split_ifs <;> rfl

@[simp] theorem enterScript_suites (e : Engine) (caller : ExecuteCaller) (newLock : Bool) :
    (e.enterScript caller newLock).suites = e.suites := by
  unfold enterScript
  split_ifs <;> rfl

/-- A callback leaves no exception, or a new one. -/
theorem callback_cases (e : Engine) (exit : CallbackExit) :
    e.callback exit = e ∨ e.callback exit = e.raise ∨ e.callback exit = e.post := by
  unfold callback
  split
  · split_ifs
    · exact Or.inl rfl
    · exact Or.inr (Or.inl rfl)
  · exact Or.inl rfl
  · exact Or.inr (Or.inr rfl)

/-- What a callback reports leaves the frames. -/
theorem callback_stack (e : Engine) (exit : CallbackExit) :
    (e.callback exit).stack = e.stack := by
  rcases callback_cases e exit with hc | hc | hc <;> rw [hc] <;> rfl

/-- What a callback reports leaves the process. -/
theorem callback_proc (e : Engine) (exit : CallbackExit) : (e.callback exit).proc = e.proc := by
  rcases callback_cases e exit with hc | hc | hc <;> rw [hc] <;> rfl

/-- What a callback reports leaves the suites. -/
theorem callback_suites (e : Engine) (exit : CallbackExit) :
    (e.callback exit).suites = e.suites := by
  rcases callback_cases e exit with hc | hc | hc <;> rw [hc] <;> rfl

/-! ### What each step does -/

section Inversion

variable {e e' : Engine}

/-- Where a script runs, its frame is the innermost and it is not failing. -/
theorem head_of_scriptRuns (h : e.scriptRuns = true) :
    e.failing = false ∧ ∃ f rest, e.stack = f :: rest ∧ f.isScript = true := by
  unfold scriptRuns at h
  cases hstack : e.stack with
  | nil => simp [hstack] at h
  | cons f rest => exact ⟨by simp_all, f, rest, rfl, by simp_all⟩

/-- **`Process`** starts with no frame active. Source: lines 167-231 of `js/src/js.c`. -/
theorem step_process {file : ScriptFile} (h : Step e (.process file) e') :
    e.stack = [] ∧ e' = e.process file := by
  dsimp only [Step, step] at h
  split_ifs at h with hstack
  exact ⟨hstack, (Option.some.inj h).symm⟩

/-- **A call of a script** is made while the script runs. -/
theorem step_op {o : ScriptOp} (h : Step e (.op o) e') :
    e.scriptRuns = true ∧ e.op o = some e' := by
  dsimp only [Step, step] at h
  split_ifs at h with hruns
  exact ⟨hruns, h⟩

/-- **A script that catches** its exception goes on with none pending. -/
theorem step_caught (h : Step e .caught e') :
    e.failing = true ∧ (∃ f rest, e.stack = f :: rest ∧ f.isScript = true) ∧
      e' = { e with pending := none, failing := false } := by
  dsimp only [Step, step] at h
  split_ifs at h with hc
  rw [Bool.and_eq_true, raises, Bool.and_eq_true] at hc
  refine ⟨hc.1.1, ?_, (Option.some.inj h).symm⟩
  cases hstack : e.stack with
  | nil => simp [hstack] at hc
  | cons f rest => exact ⟨f, rest, rfl, by simpa [hstack] using hc.2⟩

/-- The end of a script, of a handler and of a test function. -/
theorem step_ended (h : Step e .ended e') :
    (∃ caller rest, e.stack = .script caller :: rest ∧
      (e.failing = true ∧ e' = e.failScript caller rest ∨
        e.failing = false ∧ e' = { e with stack := .draining caller :: rest })) ∨
    (∃ d inv rest, e.stack = .handler d inv :: rest ∧
      e' = { e with proc := d.finish e.proc, stack := rest, failing := false }) ∨
    ∃ s i rest suite, e.stack = .run s i true :: rest ∧ e.suites s = some suite ∧
      e' = Engine.setSuite { e with stack := .run s (i + 1) false :: rest, failing := false } s
        (suite.endCase i (!e.failing)) := by
  dsimp only [Step, step, ended] at h
  split at h
  · rename_i caller rest hstack
    refine Or.inl ⟨caller, rest, hstack, ?_⟩
    split_ifs at h with hf
    · exact Or.inl ⟨hf, (Option.some.inj h).symm⟩
    · exact Or.inr ⟨by simpa using hf, (Option.some.inj h).symm⟩
  · rename_i d inv rest hstack
    exact Or.inr (Or.inl ⟨d, inv, rest, hstack, (Option.some.inj h).symm⟩)
  · rename_i s i rest hstack
    obtain ⟨suite, hs, rfl⟩ := Option.map_eq_some_iff.1 h
    exact Or.inr (Or.inr ⟨s, i, rest, suite, hstack, hs, rfl⟩)
  · cases h

/-- **`ps_HandleSelect`** is called from a loop, and ends it or starts a pass. -/
theorem step_handleSelect {a : SelectAnswer} (h : Step e (.handleSelect a) e') :
    e.failing = false ∧ ∃ loop rest, e.stack = loop :: rest ∧ loop.isLoop = true ∧
      (psHandleSelect e.proc.registry a = none ∧ e' = e.leaveLoop loop rest ∨
        ∃ reg pending, psHandleSelect e.proc.registry a = some (reg, pending) ∧
          e' = { e with
            proc := { e.proc with registry := reg }, stack := .pass pending :: loop :: rest }) := by
  dsimp only [Step, step, handleSelect] at h
  split_ifs at h with hf
  refine ⟨by simpa using hf, ?_⟩
  split at h
  · rename_i loop rest hstack
    split_ifs at h with hloop
    refine ⟨loop, rest, hstack, hloop, ?_⟩
    split at h
    · exact Or.inl ⟨‹_›, (Option.some.inj h).symm⟩
    · exact Or.inr ⟨_, _, ‹_›, (Option.some.inj h).symm⟩
  · cases h

/-- **A dispatch** calls the callback of the first copy of the pass, of an object that is
live, and may enter a handler. -/
theorem step_dispatch {r : CallbackReplies} (h : Step e (.dispatch r) e') :
    e.failing = false ∧ ∃ d pending rest p exit, e.stack = .pass (d :: pending) :: rest ∧
      e.proc.isLive d.obj = true ∧ d.call e.proc r = some (p, exit) ∧
      e' = Engine.callback
        { e with
          proc := p, stack := d.push exit ++ .pass pending :: rest,
          events := d.event exit ++ e.events } exit := by
  dsimp only [Step, step, dispatch] at h
  split_ifs at h with hf
  refine ⟨by simpa using hf, ?_⟩
  split at h
  · rename_i d pending rest hstack
    split_ifs at h with hlive
    obtain ⟨⟨p, exit⟩, hcall, rfl⟩ := Option.map_eq_some_iff.1 h
    exact ⟨d, pending, rest, p, exit, hstack, hlive, hcall, rfl⟩
  · cases h

/-- **A pass** ends when all its copies are called. -/
theorem step_passed (h : Step e .passed e') :
    e.failing = false ∧ ∃ rest, e.stack = .pass [] :: rest ∧ e' = { e with stack := rest } := by
  dsimp only [Step, step] at h
  split at h
  · rename_i rest hstack
    split_ifs at h with hf
    exact ⟨by simpa using hf, rest, hstack, (Option.some.inj h).symm⟩
  · cases h

/-- The start of a test function and the verdict. -/
theorem step_nextTest (h : Step e .nextTest e') :
    e.failing = false ∧ ∃ s i rest suite, e.stack = .run s i false :: rest ∧
      e.suites s = some suite ∧
      (i < suite.cases.length ∧
          e' = Engine.setSuite { e with stack := .run s i true :: rest } s (suite.startCase i) ∨
        suite.cases.length ≤ i ∧ e' = Engine.settle { e with stack := rest } suite.verdict) := by
  dsimp only [Step, step, nextTest] at h
  split_ifs at h with hf
  refine ⟨by simpa using hf, ?_⟩
  split at h
  · rename_i s i rest hstack
    obtain ⟨suite, hs, rfl⟩ := Option.map_eq_some_iff.1 h
    refine ⟨s, i, rest, suite, hstack, hs, ?_⟩
    by_cases hi : i < suite.cases.length
    · exact Or.inl ⟨hi, if_pos hi⟩
    · exact Or.inr ⟨by omega, if_neg hi⟩
  · cases h

/-- **A finaliser** runs for a live object none of whose handlers is running. -/
theorem step_finalise {o : ObjId} (h : Step e (.finalise o) e') :
    (e.proc.isLive o = true ∧ e.stack.any (CallFrame.isHandlerOf o) = false) ∧
      e' = { e with
        proc := if e.proc.isTcp o then tcpSocketDT e.proc o else udpSocketDT e.proc o } := by
  dsimp only [Step, step] at h
  split at h
  · exact ⟨‹_›, (Option.some.inj h).symm⟩
  · cases h

/-- What a script does changes the process by a call on a socket only. -/
theorem op_proc {o : ScriptOp} (hc : ∀ c, o ≠ .socket c) (h : e.op o = some e') :
    e'.proc = e.proc := by
  cases o with
  | socket c => exact absurd rfl (hc c)
  | systemInclude found =>
      cases h
      rcases found with _ | _ | _ | newLock
      · rfl
      · rfl
      · rfl
      · exact enterScript_proc ..
  | execute newLock =>
      cases h
      exact enterScript_proc ..
  | newJSUnit s mem =>
      dsimp only [op] at h
      split_ifs at h
      cases h
      rfl
  | add s argv mem =>
      dsimp only [op] at h
      split at h <;> cases h
      · rfl
      · exact settle_proc ..
  | assert s argv =>
      dsimp only [op, assert] at h
      split at h <;> cases h
      · rfl
      · split
        · exact settle_proc ..
        · rfl
        · rfl
  | run s =>
      dsimp only [op] at h
      split at h <;> cases h <;> rfl
  | _ =>
      cases h
      rfl

/-- What a step does to the process of the sockets. -/
inductive ProcStep (e : Engine) : EngineLabel → Process → Prop
  | same {l : EngineLabel} (hc : ∀ c, l ≠ .op (.socket c)) : ProcStep e l e.proc
  | call {c : ScriptCall} {q : Process × List TcpEvent} (hq : c.exec e.proc = some q) :
      ProcStep e (.op (.socket c)) q.1
  | pass {a : SelectAnswer} {reg : Registry} {pending : List Dispatch}
      (hq : psHandleSelect e.proc.registry a = some (reg, pending)) :
      ProcStep e (.handleSelect a) { e.proc with registry := reg }
  | callback {r : CallbackReplies} {d : Dispatch} {pending : List Dispatch}
      {rest : List CallFrame} {q : Process × CallbackExit}
      (hstack : e.stack = .pass (d :: pending) :: rest) (hq : d.call e.proc r = some q) :
      ProcStep e (.dispatch r) q.1
  | finish {d : Dispatch} {inv : Invocation} {rest : List CallFrame}
      (hstack : e.stack = .handler d inv :: rest) : ProcStep e .ended (d.finish e.proc)
  | finalise (o : ObjId) : ProcStep e (.finalise o)
      (if e.proc.isTcp o then tcpSocketDT e.proc o else udpSocketDT e.proc o)

/-- **What the steps do to the process.** -/
theorem step_proc {l : EngineLabel} (h : Step e l e') : ProcStep e l e'.proc := by
  have hsame : e'.proc = e.proc → (∀ c, l ≠ .op (.socket c)) → ProcStep e l e'.proc := by
    intro hproc hc
    rw [hproc]
    exact .same hc
  cases l with
  | process file =>
      obtain ⟨-, rfl⟩ := step_process h
      refine hsame ?_ fun c hc => by cases hc
      cases file with
      | compiles newLock => exact enterScript_proc ..
      | _ => rfl
  | op o =>
      obtain ⟨-, ho⟩ := step_op h
      by_cases hc : ∃ c, o = .socket c
      · obtain ⟨c, rfl⟩ := hc
        obtain ⟨q, hq, rfl⟩ := Option.map_eq_some_iff.1 ho
        rw [settle_proc]
        exact .call hq
      · have hno : ∀ c, o ≠ .socket c := fun c hoc => hc ⟨c, hoc⟩
        refine hsame (op_proc hno ho) fun c hoc => ?_
        cases hoc
        exact hno c rfl
  | caught =>
      obtain ⟨-, -, rfl⟩ := step_caught h
      exact hsame rfl fun c hc => by cases hc
  | ended =>
      obtain ⟨caller, rest, -, ⟨-, rfl⟩ | ⟨-, rfl⟩⟩ | ⟨d, inv, rest, hstack, rfl⟩ |
        ⟨s, i, rest, suite, -, -, rfl⟩ := step_ended h
      · refine hsame ?_ fun c hc => by cases hc
        cases caller <;> rfl
      · exact hsame rfl fun c hc => by cases hc
      · exact .finish hstack
      · exact hsame rfl fun c hc => by cases hc
  | handleSelect a =>
      obtain ⟨-, loop, rest, -, -, ⟨-, rfl⟩ | ⟨reg, pending, hq, rfl⟩⟩ := step_handleSelect h
      · exact hsame rfl fun c hc => by cases hc
      · exact .pass hq
  | dispatch r =>
      obtain ⟨-, d, pending, rest, p, exit, hstack, -, hcall, rfl⟩ := step_dispatch h
      rw [callback_proc]
      exact .callback hstack hcall
  | passed =>
      obtain ⟨-, rest, -, rfl⟩ := step_passed h
      exact hsame rfl fun c hc => by cases hc
  | nextTest =>
      obtain ⟨-, s, i, rest, suite, -, -, ⟨-, rfl⟩ | ⟨-, rfl⟩⟩ := step_nextTest h
      · exact hsame rfl fun c hc => by cases hc
      · exact hsame (settle_proc ..) fun c hc => by cases hc
  | finalise o =>
      obtain ⟨-, rfl⟩ := step_finalise h
      exact .finalise o

end Inversion

/-! ### The sockets of the engine -/

end Engine

/-- What a frame is to the sockets. -/
def CallFrame.activation? : CallFrame → Option Activation
  | .script _ => some .interpreting
  | .draining _ => some .draining
  | .events => some .events
  | .pass pending => some (.pass pending)
  | .handler d inv => some (.handler d inv)
  | .run _ _ _ | .undefined => none

/-- What a stack of frames is to them. -/
def activations (stack : List CallFrame) : List Activation := stack.filterMap CallFrame.activation?

/-- Every `run` was called by a script. -/
def Seated : List CallFrame → Prop
  | [] => True
  | .run _ _ _ :: rest =>
      ((activations rest).head?.map Activation.isScript).getD false = true ∧ Seated rest
  | _ :: rest => Seated rest

namespace Engine

/-- The world the sockets of the engine live in. -/
def world (e : Engine) : World := ⟨e.proc, activations e.stack, e.events⟩

section World

variable {e e' : Engine} {l : EngineLabel}

/-- Frames that are seated are so without the innermost. -/
theorem seated_rest {f : CallFrame} {rest : List CallFrame} (h : Seated (f :: rest)) :
    Seated rest := by
  cases f with
  | run s i inTest => exact h.2
  | _ => exact h

/-- A script that runs is one for the sockets: below a test function it is the script
that called `run`. -/
theorem world_scriptRuns (hs : Seated e.stack) (h : e.scriptRuns = true) :
    e.world.scriptRuns = true := by
  obtain ⟨-, f, rest, hstack, hf⟩ := head_of_scriptRuns h
  unfold World.scriptRuns world
  dsimp only
  rw [hstack] at hs ⊢
  cases f with
  | script caller => rfl
  | handler d inv => exact hf
  | run s i inTest => exact hs.1
  | _ => cases hf

/-- How a call ends is not seen in the world. -/
theorem settle_world {ε α : Type} {r : Except (Option ε) α} : (e.settle r).world = e.world := by
  unfold world
  simp

/-- A nested `js_Execute` begins, or leaves the sockets alone. -/
theorem enterScript_world {caller : ExecuteCaller} {newLock : Bool} (hs : Seated e.stack)
    (hruns : e.world.scriptRuns = true) :
    Seated (e.enterScript caller newLock).stack ∧
      ∃ ls, Run World.Step e.world ls (e.enterScript caller newLock).world := by
  unfold enterScript
  split_ifs
  · exact ⟨hs, [.nest], .single (if_pos hruns)⟩
  · exact ⟨hs, [], .nil _⟩

/-- What a script does is a call on a socket, the beginning of an execution or of
`events()`, or nothing to the sockets. -/
theorem op_world {o : ScriptOp} (hs : Seated e.stack) (hruns : e.scriptRuns = true)
    (h : e.op o = some e') :
    Seated e'.stack ∧ ∃ ls, Run World.Step e.world ls e'.world := by
  have hworld := world_scriptRuns hs hruns
  cases o with
  | throw =>
      cases h
      exact ⟨hs, [], .nil _⟩
  | fail code =>
      cases h
      exact ⟨hs, [], .nil _⟩
  | socket c =>
      obtain ⟨q, hq, rfl⟩ := Option.map_eq_some_iff.1 h
      refine ⟨by rwa [settle_stack], [.script c], .single ?_⟩
      rw [settle_world]
      refine (if_pos hworld).trans ?_
      show (c.exec e.proc).map _ = _
      rw [hq]
      rfl
  | systemInclude file =>
      cases h
      cases file with
      | none => exact ⟨hs, [], .nil _⟩
      | some file =>
          cases file with
          | compiles newLock => exact enterScript_world hs hworld
          | _ => exact ⟨hs, [], .nil _⟩
  | execute newLock =>
      cases h
      exact enterScript_world hs hworld
  | newJSUnit s mem =>
      dsimp only [op] at h
      split_ifs at h
      cases h
      exact ⟨hs, [], .nil _⟩
  | add s argv mem =>
      dsimp only [op] at h
      split at h <;> cases h
      · exact ⟨hs, [], .nil _⟩
      · refine ⟨by rwa [settle_stack], [], ?_⟩
        rw [settle_world]
        exact .nil _
  | assert s argv =>
      dsimp only [op, assert] at h
      split at h
      · cases h
        exact ⟨hs, [], .nil _⟩
      · cases h
        split
        · refine ⟨by rwa [settle_stack], [], ?_⟩
          rw [settle_world]
          exact .nil _
        · exact ⟨hs, [], .nil _⟩
        · exact ⟨hs, [], .nil _⟩
  | events =>
      cases h
      exact ⟨hs, [.events], .single (if_pos hworld)⟩
  | run s =>
      dsimp only [op] at h
      split at h <;> cases h
      · exact ⟨hs, [], .nil _⟩
      · exact ⟨⟨hworld, hs⟩, [], .nil _⟩

/-- What a callback reports is not seen in the world. -/
theorem callback_world {exit : CallbackExit} : (e.callback exit).world = e.world := by
  rcases callback_cases e exit with hc | hc | hc <;> rw [hc] <;> rfl

/-- The frames that a dispatch pushes are the activations it enters. -/
theorem activations_push {d : Dispatch} {exit : CallbackExit} {stack : List CallFrame} :
    activations (d.push exit ++ stack) = d.enter exit ++ activations stack := by
  cases exit <;> rfl

/-- An object without a handler among the frames has none among the activations. -/
theorem any_isHandlerOf {o : ObjId} {stack : List CallFrame}
    (h : stack.any (CallFrame.isHandlerOf o) = false) :
    (activations stack).any (Activation.isHandlerOf o) = false := by
  induction stack with
  | nil => rfl
  | cons f rest ih =>
      rw [List.any_cons, Bool.or_eq_false_iff] at h
      cases f with
      | handler d inv => exact Bool.or_eq_false_iff.2 ⟨h.1, ih h.2⟩
      | run s i inTest => exact ih h.2
      | undefined => exact ih h.2
      | _ => exact Bool.or_eq_false_iff.2 ⟨rfl, ih h.2⟩

/-- The world of an engine, by its stack. -/
theorem world_of_stack {stack : List CallFrame} (h : e.stack = stack) :
    e.world = ⟨e.proc, activations stack, e.events⟩ := by
  rw [← h]
  rfl

/-- What is interpreted ends: the script of an execution, a handler, or a test function,
which the sockets know nothing of. -/
theorem ended_world (hs : Seated e.stack) (h : Step e .ended e') :
    Seated e'.stack ∧ ∃ ls, Run World.Step e.world ls e'.world := by
  obtain ⟨caller, rest, hstack, ⟨-, rfl⟩ | ⟨-, rfl⟩⟩ | ⟨d, inv, rest, hstack, rfl⟩ |
    ⟨s, i, rest, suite, hstack, -, rfl⟩ := step_ended h
  all_goals rw [world_of_stack hstack]; rw [hstack] at hs
  · cases caller <;> exact ⟨seated_rest hs, [.interpreted false], .single rfl⟩
  · exact ⟨hs, [.interpreted true], .single rfl⟩
  · exact ⟨seated_rest hs, [.returned], .single rfl⟩
  · exact ⟨hs, [], .nil _⟩

/-- A pass of an event loop begins, or the loop ends. -/
theorem handleSelect_world {a : SelectAnswer} (hs : Seated e.stack)
    (h : Step e (.handleSelect a) e') :
    Seated e'.stack ∧ ∃ ls, Run World.Step e.world ls e'.world := by
  obtain ⟨-, loop, rest, hstack, hloop, hpass⟩ := step_handleSelect h
  have hact : ∃ act, CallFrame.activation? loop = some act ∧ act.isLoop = true := by
    cases loop with
    | draining caller => exact ⟨_, rfl, rfl⟩
    | events => exact ⟨_, rfl, rfl⟩
    | _ => cases hloop
  obtain ⟨act, hact, hactLoop⟩ := hact
  have hworld : activations (loop :: rest) = act :: activations rest := by
    rw [activations, List.filterMap_cons, hact]
    rfl
  rw [world_of_stack hstack, hworld]
  rw [hstack] at hs
  obtain ⟨hnone, rfl⟩ | ⟨reg, pending, hsome, rfl⟩ := hpass
  · refine ⟨seated_rest hs, [.handleSelect a], .single ((if_pos hactLoop).trans ?_)⟩
    rw [hnone]
    rfl
  · refine ⟨hs, [.handleSelect a], .single ((if_pos hactLoop).trans ?_)⟩
    rw [hsome, ← hworld]
    rfl

/-- A callback is called. -/
theorem dispatch_world {r : CallbackReplies} (hs : Seated e.stack)
    (h : Step e (.dispatch r) e') :
    Seated e'.stack ∧ ∃ ls, Run World.Step e.world ls e'.world := by
  obtain ⟨-, d, pending, rest, p, exit, hstack, hlive, hcall, rfl⟩ := step_dispatch h
  rw [hstack] at hs
  rw [callback_stack, callback_world, world_of_stack hstack]
  have hseated : Seated (d.push exit ++ .pass pending :: rest) := by
    cases exit <;> exact hs
  refine ⟨hseated, [.dispatch r], .single ((if_pos hlive).trans ?_)⟩
  dsimp only
  rw [hcall]
  show _ = some (World.mk p (activations (d.push exit ++ .pass pending :: rest)) _)
  rw [activations_push]
  rfl

/-- The next test case of a run is started, or the run has ended. -/
theorem nextTest_world (hs : Seated e.stack) (h : Step e .nextTest e') :
    Seated e'.stack ∧ ∃ ls, Run World.Step e.world ls e'.world := by
  obtain ⟨-, s, i, rest, suite, hstack, -, ⟨-, rfl⟩ | ⟨-, rfl⟩⟩ := step_nextTest h
  all_goals rw [world_of_stack hstack]; rw [hstack] at hs
  · exact ⟨hs, [], .nil _⟩
  · rw [settle_stack, settle_world]
    exact ⟨seated_rest hs, [], .nil _⟩

/-- **The sockets behave as in the world.**  A step of the engine is a step of the world
or none. -/
theorem step_world (hs : Seated e.stack) (h : Step e l e') :
    Seated e'.stack ∧ ∃ ls, Run World.Step e.world ls e'.world := by
  cases l with
  | process file =>
      obtain ⟨hstack, rfl⟩ := step_process h
      cases file with
      | cannotOpen => exact ⟨hs, [], .nil _⟩
      | doesNotCompile => exact ⟨hs, [], .nil _⟩
      | compiles newLock =>
          dsimp only [process, enterScript]
          split_ifs
          · refine ⟨hs, [.execute], .single ?_⟩
            show (if activations e.stack = [] then _ else _) = _
            rw [hstack]
            rfl
          · exact ⟨hs, [], .nil _⟩
  | op o =>
      obtain ⟨hruns, ho⟩ := step_op h
      exact op_world hs hruns ho
  | caught =>
      obtain ⟨-, -, rfl⟩ := step_caught h
      exact ⟨hs, [], .nil _⟩
  | ended => exact ended_world hs h
  | handleSelect a => exact handleSelect_world hs h
  | dispatch r => exact dispatch_world hs h
  | passed =>
      obtain ⟨-, rest, hstack, rfl⟩ := step_passed h
      rw [world_of_stack hstack]
      rw [hstack] at hs
      exact ⟨hs, [.passed], .single rfl⟩
  | nextTest => exact nextTest_world hs h
  | finalise o =>
      obtain ⟨⟨hlive, hany⟩, rfl⟩ := step_finalise h
      exact ⟨hs, [.finalise o], .single (if_pos ⟨hlive, any_isHandlerOf hany⟩)⟩

/-- **The engine refines the world**: what the sockets do in a run of the engine they
do in a run of the world. -/
theorem run_world {ls : List EngineLabel} (h : Run Step start ls e) :
    ∃ ls, Run World.Step .start ls e.world :=
  h.simulates (J := fun e => Seated e.stack) (fun _ _ _ hs hst => step_world hs hst)
    (show Seated [] from trivial)

end World

end Engine
end ProntoScript
