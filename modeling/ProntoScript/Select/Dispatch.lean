/-
# The calls a pass makes

`js/src/ext/psselect.c`, lines 246-317, in more detail than `psHandleSelect`: the
answer of `select` is a number with three sets, the events are copied into three
lists, and the callbacks of one of the lists are called one after the other, each of
which may change the registry in any way before it returns (`RegistryChange`).  The
loop looks at its copies only, so the calls are those of the copies whatever the
callbacks do (`psHandleSelectPass_calls`), and `psHandleSelect` is what is left where
they are not looked at (`psHandleSelect_eq_pass`).
-/

import ProntoScript.Select.Request

namespace ProntoScript

/-- What `select` returns: its result, what is left in the three sets, and the time on
the clock before and after it. -/
structure SelectResult where
  result : ℤ
  rdfs : List ℤ
  wrfs : List ℤ
  erfs : List ℤ
  start : Timespec
  stop : Timespec
deriving DecidableEq

/-- A copy of a `PSSelectEvent`; its interests are not copied. -/
structure EventCopy where
  fd : ℤ
  obj : ObjId
  func : PSSelectCallback
  errfunc : PSSelectCallback
  timeout : Timespec
deriving DecidableEq

/-- The copy of an event. -/
def EventCopy.of (fd : ℤ) (ev : PSSelectEvent) : EventCopy :=
  ⟨fd, ev.obj, ev.func, ev.errfunc, ev.timeout⟩

/-- The three lists of copies. -/
structure CopyLists where
  triggered : List EventCopy
  timedout : List EventCopy
  errored : List EventCopy

namespace SelectResult

/-- `FD_ISSET(ev->fd, &rdfs) || FD_ISSET(ev->fd, &wrfs)`. -/
def triggers (r : SelectResult) (fd : ℤ) : Bool := decide (fd ∈ r.rdfs) || decide (fd ∈ r.wrfs)

/-- `FD_ISSET(ev->fd, &erfs)`. -/
def errs (r : SelectResult) (fd : ℤ) : Bool := decide (fd ∈ r.erfs)

/-- How long `select` took. -/
def duration (r : SelectResult) : Timespec := diffTimespec r.start r.stop

end SelectResult

/-- The body of the loop that copies the events, after the update of the timeout. -/
def CopyLists.add (l : CopyLists) (r : SelectResult) (fd : ℤ) (ev : PSSelectEvent) : CopyLists where
  triggered := if r.triggers fd then .of fd ev :: l.triggered else l.triggered
  timedout := if ev.expired then .of fd ev :: l.timedout else l.timedout
  errored := if r.errs fd then .of fd ev :: l.errored else l.errored

/-- The loop that copies the events it meets. Source: `ps_HandleSelect`, lines 254-299 of
`js/src/ext/psselect.c`. -/
def copiesOf (events : List (Σ _ : ℤ, PSSelectEvent)) (r : SelectResult) : CopyLists :=
  events.foldl (fun l e => l.add r e.1 e.2) ⟨[], [], []⟩

/-- The copies of the registered events. -/
def copyLists (reg : Registry) (r : SelectResult) : CopyLists := copiesOf reg.entries r

/-- A call of one of the two callbacks of a copy. -/
structure PassCall where
  copy : EventCopy
  errfunc : Bool
deriving DecidableEq

/-- The copies of the list that the result picks, each with the callback to call. -/
def pickCalls (result : ℤ) (l : CopyLists) : List PassCall :=
  if 0 < result then l.triggered.map (⟨·, false⟩)
  else if result = 0 then l.timedout.map (⟨·, false⟩)
  else l.errored.map (⟨·, true⟩)

/-- What a callback does to the registry, by its calls and in the passes it runs. -/
inductive RegistryChange
  | call (c : SelectCall)
  | elapse (duration : Timespec)

namespace RegistryChange

/-- The registry after the change. -/
def apply (reg : Registry) : RegistryChange → Registry
  | call c => c.onMap reg
  | elapse duration => reg.updateTimeouts duration

/-- The descriptor whose event is removed, alone or to make room for a new one. -/
def removes : RegistryChange → Option ℤ
  | call c => c.removes
  | elapse _ => none

end RegistryChange

/-- The loop that calls the callbacks, from the `k`-th call of the pass on, over what
each call does to the registry: the calls it makes and the registry they leave. -/
def callLoop (does : ℕ → List RegistryChange) :
    ℕ → List PassCall → Registry → List PassCall × Registry
  | _, [], reg => ([], reg)
  | k, c :: cs, reg =>
      let q := callLoop does (k + 1) cs ((does k).foldl RegistryChange.apply reg)
      (c :: q.1, q.2)

/-- What a pass does: what it asks for, the calls it makes, the registry it leaves. -/
structure PassTrace where
  request : SelectRequest
  calls : List PassCall
  registry : Registry

/-- `ps_HandleSelect`; `none` is `JS_FALSE`. Source: lines 191-337 of
`js/src/ext/psselect.c`. -/
def psHandleSelectPass (stray : Timeval) (reg : Registry) (r : SelectResult)
    (does : ℕ → List RegistryChange) : Option PassTrace :=
  if reg.entries = [] then none
  else
    let updated := reg.updateTimeouts r.duration
    let q := callLoop does 0 (pickCalls r.result (copyLists updated r)) updated
    some ⟨selectRequest stray reg, q.1, q.2⟩

/-! ### The copies -/

/-- The copies of the events that pass a test, the oldest event first. -/
def Registry.oldestFirst (reg : Registry) (test : ℤ → PSSelectEvent → Bool) : List EventCopy :=
  (reg.entries.filter fun e => test e.1 e.2).reverse.map fun e => .of e.1 e.2

section Copies

variable {reg : Registry} {r : SelectResult} {stray : Timeval} {does : ℕ → List RegistryChange}
  {t : PassTrace} {fd : ℤ}

/-- **Each list holds the events of its kind, the oldest first**: every copy goes in
front of those made before. -/
theorem copyLists_eq : copyLists reg r =
    ⟨reg.oldestFirst fun fd _ => r.triggers fd, reg.oldestFirst fun _ ev => ev.expired,
      reg.oldestFirst fun fd _ => r.errs fd⟩ := by
  suffices h : ∀ (l : List (Σ _ : ℤ, PSSelectEvent)) (c : CopyLists),
      l.foldl (fun l e => l.add r e.1 e.2) c =
        ⟨((l.filter fun e => r.triggers e.1).reverse.map fun e => .of e.1 e.2) ++ c.triggered,
          ((l.filter fun e => e.2.expired).reverse.map fun e => .of e.1 e.2) ++ c.timedout,
          ((l.filter fun e => r.errs e.1).reverse.map fun e => .of e.1 e.2) ++ c.errored⟩ by
    have hall := h reg.entries ⟨[], [], []⟩
    simp only [List.append_nil] at hall
    exact hall
  intro l
  induction l with
  | nil => exact fun _ => rfl
  | cons e l ih =>
      intro c
      rw [List.foldl_cons, ih]
      unfold CopyLists.add
      simp only [List.filter_cons]
      split_ifs <;> simp

/-- The calls do not depend on what the callbacks do. -/
theorem callLoop_calls (k : ℕ) (cs : List PassCall) (reg : Registry) :
    (callLoop does k cs reg).1 = cs := by
  induction cs generalizing k reg with
  | nil => rfl
  | cons c cs ih => exact congrArg (c :: ·) (ih _ _)

/-- The registry behind the loop: what the calls did, one after the other. -/
theorem callLoop_registry (k : ℕ) (cs : List PassCall) (reg : Registry) :
    (callLoop does k cs reg).2 =
      ((List.range cs.length).flatMap fun i => does (k + i)).foldl RegistryChange.apply reg := by
  induction cs generalizing k reg with
  | nil => rfl
  | cons c cs ih =>
      rw [callLoop]
      dsimp only
      rw [ih, List.length_cons, List.range_succ_eq_map, List.flatMap_cons, List.foldl_append,
        List.flatMap_map]
      simp only [Nat.add_zero, Nat.succ_eq_add_one, Nat.add_comm 1, Nat.add_assoc]

/-- **What a pass asks for and the calls it makes.** -/
theorem psHandleSelectPass_calls (h : psHandleSelectPass stray reg r does = some t) :
    t.request = selectRequest stray reg ∧
      t.calls = pickCalls r.result (copyLists (reg.updateTimeouts r.duration) r) := by
  unfold psHandleSelectPass at h
  split_ifs at h
  cases h
  exact ⟨rfl, callLoop_calls ..⟩

/-- A copy of an event that passes a test. -/
theorem mem_oldestFirst {test : ℤ → PSSelectEvent → Bool} {c : EventCopy} :
    c ∈ reg.oldestFirst test ↔
      ∃ fd ev, ⟨fd, ev⟩ ∈ reg.entries ∧ test fd ev = true ∧ .of fd ev = c := by
  simp only [Registry.oldestFirst, List.mem_map, List.mem_reverse, List.mem_filter]
  constructor
  · rintro ⟨⟨fd, ev⟩, ⟨he, htest⟩, rfl⟩
    exact ⟨fd, ev, he, htest, rfl⟩
  · rintro ⟨fd, ev, he, htest, rfl⟩
    exact ⟨⟨fd, ev⟩, ⟨he, htest⟩, rfl⟩

/-- The events behind the update of the timeouts. -/
theorem mem_updateTimeouts {d : Timespec} {ev : PSSelectEvent} :
    ⟨fd, ev⟩ ∈ (reg.updateTimeouts d).entries ↔
      ∃ ev', ⟨fd, ev'⟩ ∈ reg.entries ∧ ev'.elapse d = ev := by
  change _ ∈ reg.entries.map _ ↔ _
  rw [List.mem_map]
  constructor
  · rintro ⟨⟨fd', ev'⟩, he, heq⟩
    cases heq
    exact ⟨ev', he, rfl⟩
  · rintro ⟨ev', he, rfl⟩
    exact ⟨⟨fd, ev'⟩, he, rfl⟩

end Copies

/-! ### The pass without its callbacks -/

/-- The callback of a call, with its object. -/
def PassCall.dispatch (c : PassCall) : Dispatch :=
  ⟨c.copy.fd, c.copy.obj, if c.errfunc then c.copy.errfunc else c.copy.func⟩

/-- What `select` returns where the outside answers so: a `select` that fails leaves the
three sets as they were. -/
def SelectAnswer.result (a : SelectAnswer) (asked : SelectRequest) : SelectResult :=
  match a.reply with
  | .ready rdfs wrfs erfs =>
      ⟨1, asked.rdfs.filter (· ∈ rdfs), asked.wrfs.filter (· ∈ wrfs), asked.erfs.filter (· ∈ erfs),
        a.start, a.stop⟩
  | .timedOut => ⟨0, [], [], [], a.start, a.stop⟩
  | .failed => ⟨-1, asked.rdfs, asked.wrfs, asked.erfs, a.start, a.stop⟩

section Answer

variable {reg : Registry} {a : SelectAnswer} {stray : Timeval} {fd : ℤ} {ev : PSSelectEvent}

/-- Two entries of a descriptor are the same. -/
theorem entries_unique {ev' : PSSelectEvent} (h : ⟨fd, ev⟩ ∈ reg.entries)
    (h' : ⟨fd, ev'⟩ ∈ reg.entries) : ev = ev' := by
  have h₁ := AList.mem_lookup_iff.2 h
  have h₂ := AList.mem_lookup_iff.2 h'
  exact Option.some.inj (h₁.symm.trans h₂)

/-- A registered descriptor is in the set asked for if its event has the interest. -/
theorem exists_wants (he : ⟨fd, ev⟩ ∈ reg.entries) {mask : PSFDSet} :
    (∃ ev', ⟨fd, ev'⟩ ∈ reg.entries ∧ ev'.wants mask = true) ↔ ev.wants mask = true := by
  constructor
  · rintro ⟨ev', he', hwants⟩
    rwa [entries_unique he he']
  · exact fun hwants => ⟨ev, he, hwants⟩

variable (a stray) in
/-- The bits of a registered event, read off the sets and off the answer. -/
theorem result_bits (he : ⟨fd, ev⟩ ∈ reg.entries) :
    (a.result (selectRequest stray reg)).triggers fd = a.reply.triggers fd ev ∧
      (a.result (selectRequest stray reg)).errs fd = a.reply.errs fd := by
  obtain ⟨hr, hw, herr, -⟩ := selectRequest_sets stray reg
  have hasked : fd ∈ (selectRequest stray reg).erfs := (herr fd).2 ⟨ev, he⟩
  have hread := (hr fd).trans (exists_wants he)
  have hwrite := (hw fd).trans (exists_wants he)
  unfold SelectAnswer.result SelectResult.triggers SelectResult.errs SelectReply.triggers
    SelectReply.errs
  cases a.reply with
  | ready rdfs wrfs erfs =>
      simp only [List.mem_filter, hread, hwrite, hasked, true_and, decide_eq_true_eq,
        Bool.decide_and, Bool.decide_eq_true, and_self]
  | timedOut => simp
  | failed => simp only [hread, hwrite, hasked, Bool.decide_eq_true, decide_true, and_self]

/-- The copies of `psHandleSelect` are the events that pass the test, the oldest first. -/
theorem copies_eq {test : ℤ → PSSelectEvent → Bool} {callback : PSSelectEvent → PSSelectCallback} :
    reg.copies test callback = (reg.entries.filter fun e => test e.1 e.2).reverse.map
      fun e => ⟨e.1, e.2.obj, callback e.2⟩ := by
  suffices h : ∀ (l : List (Σ _ : ℤ, PSSelectEvent)) (acc : List Dispatch),
      l.foldl (fun acc e => if test e.1 e.2 then ⟨e.1, e.2.obj, callback e.2⟩ :: acc else acc) acc =
        ((l.filter fun e => test e.1 e.2).reverse.map fun e => ⟨e.1, e.2.obj, callback e.2⟩) ++ acc by
    rw [Registry.copies, h, List.append_nil]
  intro l
  induction l with
  | nil => exact fun _ => rfl
  | cons e l ih =>
      intro acc
      rw [List.foldl_cons, ih, List.filter_cons]
      split_ifs <;> simp

/-- The calls of a list of copies, where the tests agree on the registered events. -/
theorem dispatch_oldestFirst {test : ℤ → PSSelectEvent → Bool} {errfunc : Bool}
    (test' : ℤ → PSSelectEvent → Bool)
    (h : ∀ fd ev, ⟨fd, ev⟩ ∈ reg.entries → test fd ev = test' fd ev) :
    ((reg.oldestFirst test).map (⟨·, errfunc⟩)).map PassCall.dispatch =
      reg.copies test' fun ev => if errfunc then ev.errfunc else ev.func := by
  have hfilter : (reg.entries.filter fun e => test e.1 e.2) =
      reg.entries.filter fun e => test' e.1 e.2 :=
    List.filter_congr fun e he => h e.1 e.2 he
  rw [copies_eq, Registry.oldestFirst, hfilter, List.map_map, List.map_map]
  rfl

/-- **The pass without its callbacks is `psHandleSelect`**, whatever `tv` held. -/
theorem psHandleSelect_eq_pass :
    psHandleSelect reg a = (psHandleSelectPass stray reg (a.result (selectRequest stray reg))
      fun _ => []).map fun t => (t.registry, t.calls.map PassCall.dispatch) := by
  unfold psHandleSelect psHandleSelectPass
  by_cases hreg : reg.entries = []
  · rw [if_pos hreg, if_pos hreg]
    rfl
  · rw [if_neg hreg, if_neg hreg]
    have hduration : (a.result (selectRequest stray reg)).duration = diffTimespec a.start a.stop := by
      unfold SelectAnswer.result SelectResult.duration
      cases a.reply <;> rfl
    have hbits : ∀ fd ev, ⟨fd, ev⟩ ∈ (reg.updateTimeouts (diffTimespec a.start a.stop)).entries →
        (a.result (selectRequest stray reg)).triggers fd = a.reply.triggers fd ev ∧
          (a.result (selectRequest stray reg)).errs fd = a.reply.errs fd := by
      intro fd ev he
      obtain ⟨ev', he', rfl⟩ := mem_updateTimeouts.1 he
      obtain ⟨htriggers, herrs⟩ := result_bits a stray he'
      refine ⟨htriggers.trans ?_, herrs⟩
      cases a.reply <;> rfl
    have hnone : ∀ n, ((List.range n).flatMap fun _ => ([] : List RegistryChange)) = [] := by simp
    simp only [Option.map_some, callLoop_calls, callLoop_registry, copyLists_eq, hduration, hnone,
      List.foldl_nil]
    unfold pickCalls
    cases hreply : a.reply with
    | ready rdfs wrfs erfs =>
        have hresult : (a.result (selectRequest stray reg)).result = 1 := by
          rw [SelectAnswer.result, hreply]
        rw [hresult, if_pos (by decide), dispatch_oldestFirst _ fun fd ev he => (hbits fd ev he).1,
          hreply]
        rfl
    | timedOut =>
        have hresult : (a.result (selectRequest stray reg)).result = 0 := by
          rw [SelectAnswer.result, hreply]
        rw [hresult, if_neg (by decide), if_pos rfl, dispatch_oldestFirst _ fun _ _ _ => rfl]
        rfl
    | failed =>
        have hresult : (a.result (selectRequest stray reg)).result = -1 := by
          rw [SelectAnswer.result, hreply]
        rw [hresult, if_neg (by decide), if_neg (by decide),
          dispatch_oldestFirst (fun fd _ => a.reply.errs fd)
            fun fd ev he => (hbits fd ev he).2, hreply]
        rfl

end Answer

end ProntoScript
