/-
# The stack of the engine

`js_AllocRawStack`, `js_AllocStack` and `js_FreeStack` (`js/src/jsinterp.c`, lines
326-435).  The slots are claimed from the stack pool; for the collector they are listed
in segments, each with a header of two slots in front of it (`JSStackHeader`).
`js_AllocStack` extends the last segment if the new slots come right behind it, and
begins a new one otherwise.  `js_FreeStack` gets the mark of the pool only: if the mark
is in the last segment that one was extended, else it was begun.

What a segment holds is in the pool (`JSContext.WF`), so that the mark of the pool before
an allocation is in the last segment in the one case and not in the other, on whichever
side of the segment its arena is (`freeStack_of_extends`).  Slot counts are natural
numbers: a segment lies in one arena, far from 2^32 slots.
-/

import Mathlib.Data.List.Pairwise
import ProntoScript.Engine.Arena
import ProntoScript.Engine.Value

namespace ProntoScript

/-- A `JSStackFrame *`. -/
abbrev FrameId := ℕ

/-- `JSStackFrame`: the stack pointer and, where the frame has a script and a stack of
operands, the base of the latter and its depth. Source: lines 53-76 of
`js/src/jsinterp.h`. -/
structure StackFrame where
  sp : ℕ
  operands : Option (ℕ × ℕ)
deriving DecidableEq, Repr

/-- `JSStackHeader` with its own address.  The link to the segment before is the list.
Source: lines 331-334 of `js/src/jscntxt.h`. -/
structure StackHeader where
  addr : ℕ
  nslots : ℕ
deriving DecidableEq, Repr

namespace StackHeader

/-- `JS_STACK_SEGMENT`: the first slot behind the header. Source: line 336 of
`js/src/jscntxt.h`. -/
def segment (sh : StackHeader) : ℕ := sh.addr + 16

/-- The end of the segment. -/
def limit (sh : StackHeader) : ℕ := sh.segment + 8 * sh.nslots

end StackHeader

/-- What a call finds under its arguments. -/
structure Callee where
  func : JSVal
  thisp : JSVal
  args : List JSVal
deriving DecidableEq, Repr

/-- The part of `JSContext` that calls use, with the frames and the slots in memory, and a
record of what each call found, the latest first. Source: lines 471-596 of
`js/src/jscntxt.h`. -/
structure JSContext where
  stackPool : ArenaPool
  stackHeaders : List StackHeader
  fp : FrameId
  frames : FrameId → StackFrame
  slots : ℕ → JSVal
  callees : List Callee

/-- Store the same value in the slots of a range. -/
def fillSlots (slots : ℕ → JSVal) (first last : ℕ) (v : JSVal) (addr : ℕ) : JSVal :=
  if first ≤ addr ∧ addr < last then v else slots addr

namespace JSContext

/-- The unused operands of the current frame, cleared for the collector. -/
def clearOperands (cx : JSContext) : JSContext :=
  match (cx.frames cx.fp).operands with
  | none => cx
  | some (spbase, depth) =>
      { cx with slots := fillSlots cx.slots (cx.frames cx.fp).sp (spbase + 8 * depth) .void }

/-- `js_AllocRawStack`: the context, the mark before and the slots. Source: lines 327-342
of `js/src/jsinterp.c`. -/
def allocRawStack (cx : JSContext) (nslots : ℕ) (answer : Option ℕ) : JSContext × ℕ × Option ℕ :=
  let q := cx.stackPool.allocate (nslots * 8) answer
  ({ cx with stackPool := q.1 }, cx.stackPool.mark, q.2)

/-- Extend the last stack segment, give back the 2 header slots. -/
def extendSegment (cx : JSContext) (sh : StackHeader) (down : List StackHeader) (nslots : ℕ) :
    JSContext :=
  { cx with
    stackHeaders := { sh with nslots := sh.nslots + nslots } :: down
    stackPool := { cx.stackPool with
      current := { cx.stackPool.current with avail := cx.stackPool.current.avail - 2 * 8 } } }

/-- Push a stack segment header from the 2 extra slots. -/
def pushSegment (cx : JSContext) (sp nslots : ℕ) : JSContext :=
  { cx.clearOperands with stackHeaders := ⟨sp, nslots⟩ :: cx.stackHeaders }

/-- Can we piggyback on the last segment? -/
def piggybacks (cx : JSContext) (sp : ℕ) : Option (StackHeader × List StackHeader) :=
  match cx.stackHeaders with
  | [] => none
  | sh :: down => if sh.limit = sp then some (sh, down) else none

/-- `js_AllocStack`: the context, the mark for `js_FreeStack` (`none` is `NULL`) and the
slots. Source: lines 350-410 of `js/src/jsinterp.c`. -/
def allocStack (cx : JSContext) (nslots : ℕ) (answer : Option ℕ) :
    JSContext × Option ℕ × Option ℕ :=
  if nslots = 0 then (cx, none, some cx.stackPool.mark)
  else
    match cx.allocRawStack (2 + nslots) answer with
    | (cx, mark, none) => (cx, some mark, none)
    | (cx, mark, some sp) =>
        let r := match cx.piggybacks sp with
          | some (sh, down) => (cx.extendSegment sh down nslots, sp)
          | none => (cx.pushSegment sp nslots, sp + 2 * 8)
        ({ r.1 with slots := fillSlots r.1.slots r.2 (r.2 + nslots * 8) .null }, some mark,
          some r.2)

/-- What `js_FreeStack` does with the headers: if the mark is in the current segment,
reduce it, else pop the header. -/
def freeHeaders (mark : ℕ) : List StackHeader → List StackHeader
  | [] => []
  | sh :: down =>
      let slotdiff := uptrDiff mark sh.segment / 8
      if slotdiff < sh.nslots then { sh with nslots := slotdiff } :: down else down

/-- `js_FreeStack`, which always balances `js_AllocStack`. Source: lines 412-435 of
`js/src/jsinterp.c`. -/
def freeStack (cx : JSContext) : Option ℕ → JSContext
  | none => cx
  | some mark =>
      { cx with
        stackHeaders := freeHeaders mark cx.stackHeaders
        stackPool := cx.stackPool.release mark }

end JSContext

/-- The pool holds a range of addresses in one of its arenas. -/
def ArenaPool.Holds (pool : ArenaPool) (first last : ℕ) : Prop :=
  ∃ a ∈ pool.current :: pool.below, a.base ≤ first ∧ last ≤ a.avail

/-- The stack pool is in order, and the segments are in it. -/
structure JSContext.WF (cx : JSContext) : Prop where
  pool : cx.stackPool.WF
  headers : ∀ sh ∈ cx.stackHeaders, cx.stackPool.Holds sh.addr sh.limit

section

variable {pool pool' : ArenaPool} {a b : Arena} {x first last mark sp nslots : ℕ}

/-- An address is in one arena only. -/
theorem ArenaPool.WF.eq_of_mem (h : pool.WF) (ha : a ∈ pool.current :: pool.below)
    (hb : b ∈ pool.current :: pool.below) (hxa : a.base ≤ x ∧ x ≤ a.avail)
    (hxb : b.base ≤ x ∧ x ≤ b.avail) : a = b := by
  by_contra hne
  have hapart := h.apart.forall ha hb hne
  have hno := hapart.not_contains (h.arenas a ha) (h.arenas b hb) hxb
  have hlt : x < 2 ^ 64 := by
    have := (h.arenas a ha).avail
    have := (h.arenas a ha).limit
    omega
  rw [(Arena.contains_iff (h.arenas a ha) hlt).2 hxa] at hno
  cases hno

/-- A fresh block is outside the arenas. -/
theorem ArenaPool.Fresh.outside {addr n : ℕ} (hfresh : pool.Fresh addr n) (h : pool.WF)
    (ha : a ∈ pool.current :: pool.below) (hx : a.base ≤ x ∧ x ≤ a.avail) :
    x ≤ addr ∨ addr + n ≤ x := by
  have hmem : a ∈ pool.arenas := by
    rw [ArenaPool.arenas, h.next]
    simpa [or_comm] using ha
  obtain ⟨hheader, -, havail, -, -⟩ := h.arenas a ha
  rcases hfresh.2.2 a hmem with hout | hout <;> omega

/-- A pool holds on to what it holds. -/
theorem ArenaPool.Holds.mono (h : pool.Holds first last) (hext : pool.Extends pool') :
    pool'.Holds first last := by
  obtain ⟨a, ha, hfirst, hlast⟩ := h
  obtain ⟨-, -, newer, avail, hle, hlist⟩ := hext
  unfold Holds
  rw [hlist]
  rcases List.mem_cons.1 ha with rfl | ha
  · exact ⟨{ pool.current with avail := avail }, by simp, hfirst, Nat.le_trans hlast hle⟩
  · exact ⟨a, by simp [ha], hfirst, hlast⟩

/-- A mark outside a new segment is further from it than the segment is long. -/
theorem le_slotdiff (hmark : mark < 2 ^ 64) (hlimit : sp + 16 + 8 * nslots < 2 ^ 64)
    (hout : mark ≤ sp ∨ sp + 16 + 8 * nslots ≤ mark) :
    nslots ≤ uptrDiff mark (sp + 16) / 8 := by
  rcases hout with hlt | hge
  · rw [uptrDiff_of_lt (by omega) (by omega)]
    omega
  · rw [uptrDiff_of_le hmark (by omega)]
    omega

end

namespace JSContext

/-- A successful `js_AllocStack`: the mark is that of the pool before, and it undoes what
was done to the headers. -/
structure Allocated (cx cx' : JSContext) : Prop where
  wf : cx'.WF
  pool : cx.stackPool.Extends cx'.stackPool
  headers : freeHeaders cx.stackPool.mark cx'.stackHeaders = cx.stackHeaders
  fp : cx'.fp = cx.fp
  frames : cx'.frames = cx.frames
  callees : cx'.callees = cx.callees

section

variable {cx cx' cx'' : JSContext} {sh : StackHeader} {down : List StackHeader}
  {nslots sp : ℕ} {answer : Option ℕ}

/-- An allocation extends the segment whose end is the stack pointer. -/
theorem piggybacks_eq_some (h : cx.piggybacks sp = some (sh, down)) :
    cx.stackHeaders = sh :: down ∧ sh.limit = sp := by
  unfold piggybacks at h
  split at h
  · cases h
  · rename_i hheaders
    split_ifs at h with hlimit
    obtain ⟨rfl, rfl⟩ := Prod.mk.inj (Option.some.inj h)
    exact ⟨hheaders, hlimit⟩

/-- Only slots are cleared. -/
theorem clearOperands_eq (cx : JSContext) :
    ∃ slots, cx.clearOperands = { cx with slots := slots } := by
  unfold clearOperands
  split
  · exact ⟨cx.slots, rfl⟩
  · exact ⟨_, rfl⟩

/-- The current arena holds what has just been taken from it. -/
theorem holds_current (pool : ArenaPool) {first last : ℕ} (hfirst : pool.current.base ≤ first)
    (hlast : last ≤ pool.current.avail) : pool.Holds first last :=
  ⟨pool.current, List.mem_cons_self .., hfirst, hlast⟩

/-- The mark is an address. -/
theorem WF.mark_lt (h : cx.WF) : cx.stackPool.mark < 2 ^ 64 := by
  have hcurrent := h.pool.arenas _ (List.mem_cons_self ..)
  exact Nat.lt_of_le_of_lt hcurrent.avail hcurrent.limit

/-- The new slots come right behind the last segment. -/
theorem allocated_extendSegment (h : cx.WF) (hheaders : cx.stackHeaders = sh :: down)
    (hlimit : sh.limit = cx.stackPool.mark) (hn : nslots ≠ 0)
    (hfits : cx.stackPool.current.avail + (2 + nslots) * 8 ≤ cx.stackPool.current.limit)
    (slots : ℕ → JSVal) :
    cx.Allocated { cx with
      stackHeaders := { sh with nslots := sh.nslots + nslots } :: down
      stackPool := { cx.stackPool with
        current := { cx.stackPool.current with avail := cx.stackPool.current.avail + nslots * 8 } }
      slots := slots } := by
  have hcurrent := h.pool.arenas _ (List.mem_cons_self ..)
  have hlt := h.mark_lt
  have hext := ArenaPool.extends_take cx.stackPool (nslots * 8)
  have hwf : ArenaPool.WF
      { cx.stackPool with current := cx.stackPool.current.take (nslots * 8) } :=
    h.pool.take (by omega) (by omega)
  obtain ⟨a, ha, hbase, havail⟩ := h.headers sh (by rw [hheaders]; exact List.mem_cons_self ..)
  -- the end of the segment is the mark, so the segment is in the current arena
  have hsegment : sh.addr + 16 ≤ sh.limit := Nat.le_add_right ..
  obtain rfl : a = cx.stackPool.current :=
    h.pool.eq_of_mem (x := cx.stackPool.mark) ha (List.mem_cons_self ..)
      ⟨by omega, by omega⟩ ⟨hcurrent.base, Nat.le_refl _⟩
  refine ⟨⟨hwf, ?_⟩, hext, ?_, rfl, rfl, rfl⟩
  · intro sh' hsh'
    rcases List.mem_cons.1 hsh' with rfl | hsh'
    · refine holds_current _ hbase ?_
      show sh.segment + 8 * (sh.nslots + nslots) ≤ cx.stackPool.current.avail + nslots * 8
      have hend : sh.segment + 8 * sh.nslots = cx.stackPool.current.avail := hlimit
      omega
    · exact (h.headers sh' (by rw [hheaders]; exact List.mem_cons_of_mem _ hsh')).mono hext
  · have hdiff : uptrDiff cx.stackPool.mark sh.segment / 8 = sh.nslots := by
      have hle : sh.segment ≤ sh.limit := Nat.le_add_right ..
      rw [← hlimit, uptrDiff_of_le (by omega) hle, StackHeader.limit]
      omega
    show freeHeaders cx.stackPool.mark ({ sh with nslots := sh.nslots + nslots } :: down) = _
    unfold freeHeaders
    dsimp only
    rw [show StackHeader.segment { sh with nslots := sh.nslots + nslots } = sh.segment from rfl,
      hdiff, if_pos (by omega), hheaders]

/-- A new segment is begun. -/
theorem allocated_pushSegment (h : cx.WF) {pool : ArenaPool} (hwf : pool.WF)
    (hext : cx.stackPool.Extends pool) (hbase : pool.current.base ≤ sp)
    (havail : sp + 16 + 8 * nslots ≤ pool.current.avail)
    (hout : cx.stackPool.mark ≤ sp ∨ sp + 16 + 8 * nslots ≤ cx.stackPool.mark)
    (slots : ℕ → JSVal) :
    cx.Allocated { pushSegment { cx with stackPool := pool } sp nslots with slots := slots } := by
  obtain ⟨slots', hslots⟩ := clearOperands_eq { cx with stackPool := pool }
  unfold pushSegment
  rw [hslots]
  have hmark := h.mark_lt
  have hlimit : sp + 16 + 8 * nslots < 2 ^ 64 := by
    have hcurrent := hwf.arenas _ (List.mem_cons_self ..)
    have := hcurrent.avail
    have := hcurrent.limit
    omega
  refine ⟨⟨hwf, ?_⟩, hext, ?_, rfl, rfl, rfl⟩
  · intro sh hsh
    rcases List.mem_cons.1 hsh with rfl | hsh
    · exact holds_current _ hbase havail
    · exact (h.headers sh hsh).mono hext
  · show freeHeaders cx.stackPool.mark (⟨sp, nslots⟩ :: cx.stackHeaders) = _
    have hdiff := le_slotdiff hmark hlimit hout
    unfold freeHeaders
    dsimp only
    rw [show StackHeader.segment ⟨sp, nslots⟩ = sp + 16 from rfl, if_neg (by omega)]

/-- No segment ends where a new arena begins. -/
theorem piggybacks_claim (h : cx.WF) {pool : ArenaPool} {addr nb : ℕ} (hpos : 0 < nb)
    (hfresh : cx.stackPool.Fresh addr (Arena.gross cx.stackPool.arenasize nb)) :
    piggybacks { cx with stackPool := pool } (Arena.claim cx.stackPool.arenasize nb addr).base =
      none := by
  obtain ⟨hheader, -, -, hroom⟩ := Arena.claim_fits hfresh.1 cx.stackPool.arenasize nb
  dsimp only [Arena.size] at hheader
  by_contra hpiggy
  obtain ⟨⟨sh, down⟩, hpiggy⟩ := Option.ne_none_iff_exists'.1 hpiggy
  obtain ⟨hheaders, hlimit⟩ := piggybacks_eq_some hpiggy
  have hmem : sh ∈ cx.stackHeaders := by
    rw [show cx.stackHeaders = sh :: down from hheaders]
    exact List.mem_cons_self ..
  obtain ⟨a, ha, hfirst, hlast⟩ := h.headers sh hmem
  have hle : sh.addr ≤ sh.limit := by
    unfold StackHeader.limit StackHeader.segment
    omega
  have hout := hfresh.outside h.pool ha ⟨Nat.le_trans hfirst hle, hlast⟩
  omega

/-- **What `js_AllocStack` does**: it fails and changes nothing, or it leaves what its mark
undoes. -/
theorem allocStack_cases (h : cx.WF) (hn : nslots ≠ 0) (answer : Option ℕ) :
    cx.allocStack nslots answer = (cx, some cx.stackPool.mark, none) ∨
      ∃ cx' sp, cx.allocStack nslots answer = (cx', some cx.stackPool.mark, some sp) ∧
        cx.Allocated cx' := by
  have hnb : (2 + nslots) * 8 % 8 = 0 := by omega
  have hmark : cx.stackPool.mark = cx.stackPool.current.avail := rfl
  unfold allocStack allocRawStack
  rw [if_neg hn]
  rcases ArenaPool.allocate_cases h.pool hnb answer with
    ⟨heq, hfits⟩ | heq | ⟨addr, hfresh, heq⟩
  · right
    rw [heq]
    dsimp only
    refine ⟨_, _, rfl, ?_⟩
    cases hpiggy : piggybacks _ cx.stackPool.current.avail with
    | some q =>
        obtain ⟨sh, down⟩ := q
        obtain ⟨hheaders, hlimit⟩ := piggybacks_eq_some hpiggy
        have hback : cx.stackPool.current.avail + (2 + nslots) * 8 - 2 * 8 =
            cx.stackPool.current.avail + nslots * 8 := by omega
        have halloc := allocated_extendSegment h hheaders hlimit hn hfits
        rw [← hback] at halloc
        exact halloc _
    | none =>
        refine allocated_pushSegment h (h.pool.take hnb hfits) (ArenaPool.extends_take ..)
          ?_ ?_ ?_ _
        · exact (h.pool.arenas _ (List.mem_cons_self ..)).base
        · show _ ≤ cx.stackPool.current.avail + (2 + nslots) * 8
          omega
        · exact Or.inl (Nat.le_refl _)
  · left
    rw [heq]
  · right
    rw [heq]
    dsimp only
    refine ⟨_, _, rfl, ?_⟩
    have hwf := h.pool.claim hnb hfresh
    have hext : cx.stackPool.Extends { cx.stackPool with
        below := cx.stackPool.current :: cx.stackPool.below
        current := (Arena.claim cx.stackPool.arenasize ((2 + nslots) * 8) addr).take
          ((2 + nslots) * 8) } :=
      ⟨rfl, rfl, [_], cx.stackPool.current.avail, Nat.le_refl _, rfl⟩
    obtain ⟨hheader, -, havail, hroom⟩ :=
      Arena.claim_fits hfresh.1 cx.stackPool.arenasize ((2 + nslots) * 8)
    dsimp only [Arena.size] at hheader
    rw [piggybacks_claim h (by omega) hfresh]
    have hcurrent := h.pool.arenas _ (List.mem_cons_self ..)
    have hbase : (Arena.claim cx.stackPool.arenasize ((2 + nslots) * 8) addr).base ≤
        (Arena.claim cx.stackPool.arenasize ((2 + nslots) * 8) addr).base := Nat.le_refl _
    refine allocated_pushSegment h hwf hext hbase ?_ ?_ _
    · show _ ≤ (Arena.claim cx.stackPool.arenasize ((2 + nslots) * 8) addr).avail + _
      omega
    · rcases hfresh.outside h.pool (List.mem_cons_self ..) ⟨hcurrent.base, Nat.le_refl _⟩ with
        hout | hout
      · exact Or.inl (by omega)
      · exact Or.inr (by omega)

/-- **`js_FreeStack` balances `js_AllocStack`**, whatever was allocated in between and not
given back. -/
theorem freeStack_of_extends (h : cx.WF) (halloc : cx.Allocated cx')
    (hheaders : cx''.stackHeaders = cx'.stackHeaders) (hwf : cx''.stackPool.WF)
    (hext : cx'.stackPool.Extends cx''.stackPool) :
    cx''.freeStack (some cx.stackPool.mark) =
      { cx'' with stackHeaders := cx.stackHeaders, stackPool := cx.stackPool } := by
  unfold freeStack
  dsimp only
  rw [hheaders, halloc.headers, ArenaPool.release_of_extends h.pool hwf (halloc.pool.trans hext)]

end
end JSContext

end ProntoScript
