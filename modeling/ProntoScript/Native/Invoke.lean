/-
# Calls from native code

`TCPSocket_Invoke` (`js/src/ext/pstcpsocket.c`, lines 404-436), `UDPSocket_Invoke`
(`js/src/ext/psudpsocket.c`, lines 305-337) and `JSUnit_RunTestCase`
(`js/src/ext/jsunit.c`, lines 436-468) are the same function: it allocates stack, pushes
the function, the object and the arguments, lifts the current frame over them and calls
`js_Invoke`; then it lowers the frame and frees the stack.

What goes on in between is the engine's (`Behaviour`): code that computes, allocates from
the stack pool, and makes such calls in turn, to any depth.  Of `js_Invoke` it is taken
that it finds the callee, `this` and the arguments under the stack pointer, that it gives
back what was allocated from the pool since it was called, restores the current frame and
leaves its result just below the stack pointer.
-/

import Mathlib.Logic.Function.Basic
import ProntoScript.Engine.Stack

namespace ProntoScript

namespace JSContext

/-- Store to the stack pointer of a frame. -/
def setSp (cx : JSContext) (fp : FrameId) (sp : ℕ) : JSContext :=
  { cx with frames := Function.update cx.frames fp { cx.frames fp with sp := sp } }

/-- `*sp++ = v` for each of the values. -/
def push (cx : JSContext) (sp : ℕ) : List JSVal → JSContext × ℕ
  | [] => (cx, sp)
  | v :: vs => push { cx with slots := Function.update cx.slots sp v } (sp + 8) vs

/-- The callee, `this` and the arguments in the slots from an address on. -/
def calleeAt (cx : JSContext) (vp argc : ℕ) : Callee :=
  ⟨cx.slots vp, cx.slots (vp + 8), (List.range argc).map fun i => cx.slots (vp + 8 * (2 + i))⟩

/-- `js_Invoke`, given what the callee does and returns. Source: lines 855-1256 of
`js/src/jsinterp.c`. -/
def jsInvoke (cx : JSContext) (argc : ℕ) (callee : JSContext → JSContext) (rval : JSVal) :
    JSContext :=
  let mark := cx.stackPool.mark
  let fp := cx.fp
  let vp := (cx.frames fp).sp - 8 * (2 + argc)
  let cx := callee { cx with callees := cx.calleeAt vp argc :: cx.callees }
  let cx := { cx with
    fp := fp
    stackPool := cx.stackPool.release mark
    slots := Function.update cx.slots vp rval }
  cx.setSp fp (vp + 8)

/-- The call of a function of the script from native code, and what it returns. -/
def invokeFunction (cx : JSContext) (obj : ℕ) (func : JSVal) (argv : List JSVal)
    (answer : Option ℕ) (callee : JSContext → JSContext) (rval : JSVal) (result : Bool) :
    JSContext × Bool :=
  match cx.allocStack (2 + argv.length) answer with
  | (cx, _, none) => (cx, false)
  | (cx, mark, some sp) =>
      let s := cx.push sp (func :: .object obj :: argv)
      let fp := s.1.fp
      let oldsp := (s.1.frames fp).sp
      let cx := (s.1.setSp fp s.2).jsInvoke argv.length callee rval
      ((cx.setSp fp oldsp).freeStack mark, result)

/-- `TCPSocket_Invoke`. Source: lines 404-436 of `js/src/ext/pstcpsocket.c`. -/
def tcpSocketInvoke := invokeFunction

/-- `UDPSocket_Invoke`. Source: lines 306-338 of `js/src/ext/psudpsocket.c`. -/
def udpSocketInvoke := invokeFunction

/-- `JSUnit_RunTestCase`. Source: lines 436-468 of `js/src/ext/jsunit.c`. -/
def jsunitRunTestCase := invokeFunction

end JSContext

/-- The native functions that call functions of the script. -/
inductive NativeInvoke
  | tcpSocketInvoke
  | udpSocketInvoke
  | jsunitRunTestCase
deriving DecidableEq, Repr

/-- The call. -/
def NativeInvoke.call : NativeInvoke → JSContext → ℕ → JSVal → List JSVal → Option ℕ →
    (JSContext → JSContext) → JSVal → Bool → JSContext × Bool
  | tcpSocketInvoke => JSContext.tcpSocketInvoke
  | udpSocketInvoke => JSContext.udpSocketInvoke
  | jsunitRunTestCase => JSContext.jsunitRunTestCase

/-- The three functions are one. -/
theorem NativeInvoke.call_eq (native : NativeInvoke) :
    native.call = JSContext.invokeFunction := by
  cases native <;> rfl

/-- What code does to the stack, one thing after the other. -/
inductive Behaviour
  /-- It returns. -/
  | done
  /-- It computes: another frame may be current, and frames and slots have any contents. -/
  | compute (fp : FrameId) (frames : FrameId → StackFrame) (slots : ℕ → JSVal) (rest : Behaviour)
  /-- `js_AllocRawStack`, for the caller to give back. -/
  | raw (nslots : ℕ) (answer : Option ℕ) (rest : Behaviour)
  /-- `JS_ARENA_MARK`, and `JS_ARENA_RELEASE` after what is done in between. -/
  | released (body rest : Behaviour)
  /-- `js_AllocStack`, and `js_FreeStack` after what is done in between. -/
  | segment (nslots : ℕ) (answer : Option ℕ) (body rest : Behaviour)
  /-- A call from native code. -/
  | invoke (native : NativeInvoke) (obj : ℕ) (func : JSVal) (argv : List JSVal)
      (answer : Option ℕ) (callee : Behaviour) (rval : JSVal) (result : Bool) (rest : Behaviour)

/-- The context it leaves. -/
def Behaviour.exec : Behaviour → JSContext → JSContext
  | done, cx => cx
  | compute fp frames slots rest, cx =>
      rest.exec { cx with fp := fp, frames := frames, slots := slots }
  | raw nslots answer rest, cx => rest.exec (cx.allocRawStack nslots answer).1
  | released body rest, cx =>
      let cx' := body.exec cx
      rest.exec { cx' with stackPool := cx'.stackPool.release cx.stackPool.mark }
  | segment nslots answer body rest, cx =>
      match cx.allocStack nslots answer with
      | (cx, _, none) => rest.exec cx
      | (cx, mark, some _) => rest.exec ((body.exec cx).freeStack mark)
  | invoke native obj func argv answer callee rval result rest, cx =>
      rest.exec (native.call cx obj func argv answer callee.exec rval result).1

namespace JSContext

/-- What is done to a context without giving it back: the pool may hold more, and there may
be more calls on record. -/
structure Kept (cx cx' : JSContext) : Prop where
  wf : cx'.WF
  pool : cx.stackPool.Extends cx'.stackPool
  headers : cx'.stackHeaders = cx.stackHeaders
  callees : ∃ inner, cx'.callees = inner ++ cx.callees

/-- A call from native code gives back everything. -/
structure Balanced (cx cx' : JSContext) : Prop where
  fp : cx'.fp = cx.fp
  sp : (cx'.frames cx.fp).sp = (cx.frames cx.fp).sp
  headers : cx'.stackHeaders = cx.stackHeaders
  pool : cx'.stackPool = cx.stackPool

section

variable {cx cx' cx'' : JSContext} {callee : JSContext → JSContext}

/-- A context is kept where nothing is called. -/
theorem Kept.refl (h : cx.WF) : cx.Kept cx := ⟨h, .refl _, rfl, [], rfl⟩

/-- A context is kept by two calls. -/
theorem Kept.trans (h₁ : cx.Kept cx') (h₂ : cx'.Kept cx'') : cx.Kept cx'' := by
  obtain ⟨inner₁, hcallees₁⟩ := h₁.callees
  obtain ⟨inner₂, hcallees₂⟩ := h₂.callees
  refine ⟨h₂.wf, h₁.pool.trans h₂.pool, h₂.headers.trans h₁.headers, inner₂ ++ inner₁, ?_⟩
  rw [hcallees₂, hcallees₁, List.append_assoc]

/-- Frames, slots and records are not what a context in order is about. -/
theorem WF.of_eq (h : cx.WF) (hpool : cx'.stackPool = cx.stackPool)
    (hheaders : cx'.stackHeaders = cx.stackHeaders) : cx'.WF := by
  refine ⟨hpool ▸ h.pool, ?_⟩
  rw [hheaders, hpool]
  exact h.headers

/-- A pool that only grew holds the segments. -/
theorem WF.of_extends (h : cx.WF) (hwf : cx'.stackPool.WF)
    (hext : cx.stackPool.Extends cx'.stackPool) (hheaders : cx'.stackHeaders = cx.stackHeaders) :
    cx'.WF := by
  refine ⟨hwf, fun sh hsh => (h.headers sh ?_).mono hext⟩
  rwa [← hheaders]

/-- The values are pushed one behind the other. -/
theorem push_eq (cx : JSContext) (sp : ℕ) (vs : List JSVal) :
    ∃ slots, cx.push sp vs = ({ cx with slots := slots }, sp + 8 * vs.length) ∧
      (∀ i (hi : i < vs.length), slots (sp + 8 * i) = vs[i]) ∧
      ∀ addr < sp, slots addr = cx.slots addr := by
  induction vs generalizing cx sp with
  | nil => exact ⟨cx.slots, rfl, fun i hi => absurd hi (Nat.not_lt_zero i), fun _ _ => rfl⟩
  | cons v vs ih =>
      obtain ⟨slots, hpush, hread, hbelow⟩ :=
        ih { cx with slots := Function.update cx.slots sp v } (sp + 8)
      refine ⟨slots, ?_, ?_, ?_⟩
      · rw [push, hpush, List.length_cons]
        congr 1
        omega
      · intro i hi
        rcases i with _ | i
        · exact (hbelow sp (by omega)).trans (Function.update_self ..)
        · rw [show sp + 8 * (i + 1) = sp + 8 + 8 * i by omega, hread i (by simpa using hi)]
          rfl
      · intro addr haddr
        exact (hbelow addr (by omega)).trans (Function.update_of_ne (by omega) ..)

/-- What was pushed is what the callee finds. -/
theorem calleeAt_push {sp obj : ℕ} {func : JSVal} {argv : List JSVal} {slots : ℕ → JSVal}
    (hread : ∀ i (hi : i < (func :: .object obj :: argv).length),
      slots (sp + 8 * i) = (func :: .object obj :: argv)[i]) (hslots : cx.slots = slots) :
    cx.calleeAt sp argv.length = ⟨func, .object obj, argv⟩ := by
  unfold calleeAt
  rw [hslots]
  have hfunc : slots sp = func := hread 0 (by simp)
  have hobj : slots (sp + 8) = .object obj := hread 1 (by simp)
  have hargv : (List.range argv.length).map (fun i => slots (sp + 8 * (2 + i))) = argv := by
    refine List.ext_getElem (by simp) fun i hi hi' => ?_
    rw [List.getElem_map, List.getElem_range, hread (2 + i) (by simp; omega)]
    simp [Nat.add_comm 2 i]
  rw [hfunc, hobj, hargv]

/-- The callee keeps every context in order, whatever it does to frames and slots. -/
def Keeps (callee : JSContext → JSContext) : Prop := ∀ cx : JSContext, cx.WF → cx.Kept (callee cx)

/-- **What `js_Invoke` leaves**: the current frame, the pool and the segments as they were, and
one more call on record, with what the callee found. -/
theorem jsInvoke_kept (h : cx.WF) (hcallee : Keeps callee) (argc : ℕ) (rval : JSVal) :
    (cx.jsInvoke argc callee rval).fp = cx.fp ∧
    (cx.jsInvoke argc callee rval).stackPool = cx.stackPool ∧
    (cx.jsInvoke argc callee rval).stackHeaders = cx.stackHeaders ∧
    ∃ inner, (cx.jsInvoke argc callee rval).callees = inner ++
      cx.calleeAt ((cx.frames cx.fp).sp - 8 * (2 + argc)) argc :: cx.callees := by
  have hstart : JSContext.WF { cx with
      callees := cx.calleeAt ((cx.frames cx.fp).sp - 8 * (2 + argc)) argc :: cx.callees } :=
    h.of_eq rfl rfl
  obtain ⟨hwf, hpool, hheaders, inner, hcallees⟩ := hcallee _ hstart
  exact ⟨rfl, ArenaPool.release_of_extends h.pool hwf.pool hpool, hheaders, inner, hcallees⟩

/-- **A call from native code is balanced**, and unless there is no stack for it the callee
finds the function, the object and the arguments. -/
theorem invokeFunction_balanced (h : cx.WF) (hcallee : Keeps callee) (obj : ℕ) (func : JSVal)
    (argv : List JSVal) (answer : Option ℕ) (rval : JSVal) (result : Bool) :
    (cx.allocStack (2 + argv.length) answer).2.2 = none ∧
        cx.invokeFunction obj func argv answer callee rval result = (cx, false) ∨
      ∃ cx' inner, cx.invokeFunction obj func argv answer callee rval result = (cx', result) ∧
        cx.Balanced cx' ∧ cx'.callees = inner ++ ⟨func, .object obj, argv⟩ :: cx.callees := by
  unfold invokeFunction
  rcases allocStack_cases h (show 2 + argv.length ≠ 0 by omega) answer with
    heq | ⟨cx₁, sp, heq, halloc⟩
  · rw [heq]
    exact Or.inl ⟨rfl, rfl⟩
  · right
    rw [heq]
    dsimp only
    obtain ⟨slots, hpush, hread, -⟩ := push_eq cx₁ sp (func :: .object obj :: argv)
    rw [hpush]
    dsimp only
    -- the current frame is lifted over what was pushed
    generalize hlift : setSp { cx₁ with slots := slots } cx₁.fp
      (sp + 8 * (func :: .object obj :: argv).length) = cx₂
    have hpool : cx₂.stackPool = cx₁.stackPool := by rw [← hlift]; rfl
    have hheaders : cx₂.stackHeaders = cx₁.stackHeaders := by rw [← hlift]; rfl
    have hfp : cx₂.fp = cx₁.fp := by rw [← hlift]; rfl
    have hcallees : cx₂.callees = cx₁.callees := by rw [← hlift]; rfl
    have hvp : (cx₂.frames cx₂.fp).sp - 8 * (2 + argv.length) = sp := by
      rw [← hlift]
      simp only [setSp, Function.update_self, List.length_cons]
      omega
    have hseen : cx₂.calleeAt sp argv.length = ⟨func, .object obj, argv⟩ :=
      calleeAt_push hread (by rw [← hlift]; rfl)
    obtain ⟨hfp', hpool', hheaders', inner, hcallees'⟩ :=
      jsInvoke_kept (halloc.wf.of_eq hpool hheaders) hcallee argv.length rval
    rw [hvp, hseen, hcallees, halloc.callees] at hcallees'
    generalize cx₂.jsInvoke argv.length callee rval = cx₃ at hfp' hpool' hheaders' hcallees' ⊢
    rw [hpool] at hpool'
    have hfree : (cx₃.setSp cx₁.fp (cx₁.frames cx₁.fp).sp).freeStack (some cx.stackPool.mark) =
        { cx₃.setSp cx₁.fp (cx₁.frames cx₁.fp).sp with
          stackHeaders := cx.stackHeaders, stackPool := cx.stackPool } :=
      freeStack_of_extends h halloc (hheaders'.trans hheaders) (hpool'.symm ▸ halloc.wf.pool)
        (hpool'.symm ▸ .refl _)
    refine ⟨_, inner, rfl, ?_, ?_⟩
    · rw [hfree]
      refine ⟨hfp'.trans (hfp.trans halloc.fp), ?_, rfl, rfl⟩
      rw [← halloc.fp, ← halloc.frames]
      simp only [setSp, Function.update_self]
    · rw [hfree]
      exact hcallees'

/-- **Whatever the code does, it gives back all segments, and allocates from the pool only.** -/
theorem exec_keeps (b : Behaviour) : Keeps b.exec := by
  intro cx h
  induction b generalizing cx with
  | done => exact .refl h
  | compute fp frames slots rest ih =>
      have hwf : JSContext.WF { cx with fp := fp, frames := frames, slots := slots } :=
        h.of_eq rfl rfl
      exact Kept.trans ⟨hwf, .refl _, rfl, [], rfl⟩ (ih _ hwf)
  | raw nslots answer rest ih =>
      have hnb : nslots * 8 % 8 = 0 := by omega
      obtain ⟨hpool, hext⟩ := ArenaPool.allocate_extends h.pool hnb answer
      have hwf : (cx.allocRawStack nslots answer).1.WF := h.of_extends hpool hext rfl
      exact Kept.trans ⟨hwf, hext, rfl, [], rfl⟩ (ih _ hwf)
  | released body rest ihbody ihrest =>
      obtain ⟨hwf, hext, hheaders, hcallees⟩ := ihbody cx h
      have hrelease := ArenaPool.release_of_extends h.pool hwf.pool hext
      have hkept : cx.Kept { body.exec cx with
          stackPool := (body.exec cx).stackPool.release cx.stackPool.mark } := by
        rw [hrelease]
        exact ⟨h.of_eq rfl hheaders, .refl _, hheaders, hcallees⟩
      exact hkept.trans (ihrest _ hkept.wf)
  | segment nslots answer body rest ihbody ihrest =>
      rw [Behaviour.exec]
      by_cases hn : nslots = 0
      · -- nothing is allocated, and nothing is freed
        rw [allocStack, if_pos hn]
        exact (ihbody cx h).trans (ihrest _ (ihbody cx h).wf)
      · rcases allocStack_cases h hn answer with heq | ⟨cx', sp, heq, halloc⟩
        · rw [heq]
          exact ihrest cx h
        · rw [heq]
          obtain ⟨hwf, hext, hheaders, inner, hcallees⟩ := ihbody cx' halloc.wf
          have hfree := freeStack_of_extends h halloc hheaders hwf.pool hext
          have hkept : cx.Kept ((body.exec cx').freeStack (some cx.stackPool.mark)) := by
            rw [hfree]
            exact ⟨h.of_eq rfl rfl, .refl _, rfl, inner, hcallees.trans (by rw [halloc.callees])⟩
          exact hkept.trans (ihrest _ hkept.wf)
  | invoke native obj func argv answer callee rval result rest ihcallee ihrest =>
      rw [Behaviour.exec, native.call_eq]
      rcases invokeFunction_balanced h ihcallee obj func argv answer rval result with
        ⟨-, heq⟩ | ⟨cx', inner, heq, hbalanced, hcallees⟩
      · rw [heq]
        exact ihrest cx h
      · rw [heq]
        have hkept : cx.Kept cx' := by
          refine ⟨h.of_eq hbalanced.pool hbalanced.headers, ?_, hbalanced.headers, ?_⟩
          · rw [hbalanced.pool]
            exact .refl _
          · exact ⟨inner ++ [⟨func, .object obj, argv⟩], by rw [hcallees, List.append_assoc]; rfl⟩
        exact hkept.trans (ihrest cx' hkept.wf)

end

/-! ### Contexts reached -/

/-- A new context: `JS_InitArenaPool` makes a pool whose first arena, part of the context,
is empty. Source: lines 70-94 of `js/src/jsarena.c`. -/
def start (addr arenasize : ℕ) (fp : FrameId) (frames : FrameId → StackFrame)
    (slots : ℕ → JSVal) : JSContext where
  stackPool :=
    let base := arenaAlign (addr + Arena.size)
    ⟨[], ⟨addr, base, base, base⟩, [], arenasize⟩
  stackHeaders := []
  fp := fp
  frames := frames
  slots := slots
  callees := []

/-- The contexts that code finds: of a new context, after other code, and where stack has
been allocated that is still to be freed. -/
inductive Reached : JSContext → Prop
  | start {addr : ℕ} (haddr : addr + Arena.size + 7 < 2 ^ 64) (arenasize : ℕ) (fp : FrameId)
      (frames : FrameId → StackFrame) (slots : ℕ → JSVal) :
      Reached (start addr arenasize fp frames slots)
  | exec {cx : JSContext} (h : Reached cx) (b : Behaviour) : Reached (b.exec cx)
  | segment {cx : JSContext} (h : Reached cx) (nslots : ℕ) (answer : Option ℕ) :
      Reached (cx.allocStack nslots answer).1

/-- Every context reached is in order. -/
theorem Reached.wf {cx : JSContext} (h : Reached cx) : cx.WF := by
  induction h with
  | @start addr haddr arenasize fp frames slots =>
      refine ⟨⟨rfl, ?_, List.pairwise_singleton _ _⟩, fun sh hsh => by cases hsh⟩
      intro a ha
      rcases List.mem_singleton.1 ha with rfl
      have halign : addr + Arena.size ≤ arenaAlign (addr + Arena.size) ∧
          arenaAlign (addr + Arena.size) ≤ addr + Arena.size + 7 ∧
          arenaAlign (addr + Arena.size) % 8 = 0 := by
        unfold arenaAlign
        omega
      exact ⟨halign.1, Nat.le_refl _, Nat.le_refl _, Nat.lt_of_le_of_lt halign.2.1 haddr,
        halign.2.2⟩
  | exec _ b ih => exact (exec_keeps b _ ih).wf
  | @segment cx _ nslots answer ih =>
      by_cases hn : nslots = 0
      · rw [allocStack, if_pos hn]
        exact ih
      · rcases allocStack_cases ih hn answer with heq | ⟨cx', sp, heq, halloc⟩
        · rw [heq]
          exact ih
        · rw [heq]
          exact halloc.wf

/-- **The native functions that call functions of the script are balanced**, for every
function, object and arguments, whatever the function does, and however deep the call is:
the current frame, its stack pointer, the segments with their lengths and the stack pool
are as they were.  There is no stack for the call and the call fails, or the function
finds itself, the object as `this`, and the arguments.  Source: `TCPSocket_Invoke`
(lines 404-436 of `js/src/ext/pstcpsocket.c`), `UDPSocket_Invoke` (lines 306-338 of
`js/src/ext/psudpsocket.c`), `JSUnit_RunTestCase` (lines 436-468 of
`js/src/ext/jsunit.c`), `js_AllocStack` and `js_FreeStack` (lines 350-435 of
`js/src/jsinterp.c`). -/
theorem native_invoke_balanced {cx : JSContext} (h : Reached cx) (native : NativeInvoke)
    (obj : ℕ) (func : JSVal) (argv : List JSVal) (answer : Option ℕ) (callee : Behaviour)
    (rval : JSVal) (result : Bool) :
    let r := native.call cx obj func argv answer callee.exec rval result
    r.1.fp = cx.fp ∧ (r.1.frames cx.fp).sp = (cx.frames cx.fp).sp ∧
      r.1.stackHeaders = cx.stackHeaders ∧ r.1.stackPool = cx.stackPool ∧
      ((cx.allocStack (2 + argv.length) answer).2.2 = none ∧ r.2 = false ∧
          r.1.callees = cx.callees ∨
        r.2 = result ∧
          ∃ inner, r.1.callees = inner ++ ⟨func, .object obj, argv⟩ :: cx.callees) := by
  rw [native.call_eq]
  rcases invokeFunction_balanced h.wf (exec_keeps callee) obj func argv answer rval result with
    ⟨hnone, heq⟩ | ⟨cx', inner, heq, hbalanced, hcallees⟩
  · dsimp only
    rw [heq]
    exact ⟨rfl, rfl, rfl, rfl, Or.inl ⟨hnone, rfl, rfl⟩⟩
  · dsimp only
    rw [heq]
    exact ⟨hbalanced.fp, hbalanced.sp, hbalanced.headers, hbalanced.pool,
      Or.inr ⟨rfl, inner, hcallees⟩⟩

/-- A handler with one argument, whose test case finds the pool too small and gets an arena of
its own. -/
theorem native_invoke_balanced_nested :
    ∃ cx : JSContext, ∃ callee : Behaviour, cx.stackPool.mark = 4128 ∧
      (NativeInvoke.tcpSocketInvoke.call cx 7 (.function 1) [.int 3] (some 16384) callee.exec .void
        true).1.stackPool.mark = 4128 ∧
      ∃ inner, (NativeInvoke.tcpSocketInvoke.call cx 7 (.function 1) [.int 3] (some 16384)
        callee.exec .void true).1.callees = inner ++ [⟨.function 1, .object 7, [.int 3]⟩] := by
  have hreached : Reached (start 4096 64 0 (fun _ => ⟨0, none⟩) fun _ => .void) :=
    .start (by decide) ..
  have h := native_invoke_balanced hreached .tcpSocketInvoke 7 (.function 1) [.int 3] (some 16384)
    (.invoke .jsunitRunTestCase 8 (.function 2) [.null, .null] (some 32768) .done .void true .done)
    .void true
  dsimp only at h
  obtain ⟨-, -, -, hpool, hcallees⟩ := h
  refine ⟨_, _, rfl, congrArg ArenaPool.mark hpool, ?_⟩
  rcases hcallees with ⟨-, hfails, -⟩ | ⟨-, hseen⟩
  · exact absurd hfails (by decide)
  · exact hseen

end JSContext

end ProntoScript
