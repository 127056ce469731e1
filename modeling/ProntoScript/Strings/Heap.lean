/-
# The heap of strings

`JSString` and `JSDependentString` (`js/src/jsstr.h`, `js/src/jsstr.c`).  A string is two
words: a length, whose two high bits say what the rest means, and a pointer.  A flat
string owns a buffer of characters.  A dependent string has no characters of its own: its
pointer is to another string, the base, of whose characters it is a stretch.  A prefix,
which starts at 0, has the whole word for its length; any other one packs start and length
into half of the word each.

What makes strings cheap makes them delicate.  `js_ConcatStrings` takes the buffer away
from its left operand, grows it into the result and leaves the operand behind as a prefix
of the result; `js_MinimizeDependentStrings` shortens the chains of bases that this
builds; `js_UndependString` gives a dependent string a buffer of its own.  All of it
happens behind the back of the program, to which a string is a value.

`w` is `JSSTRDEP_LENGTH_BITS`, so that a `size_t` has `2 * w + 2` bits: 31 on a machine of
64 bits, 15 on one of 32.  Addresses count `jschar`s.  Where the program would touch memory
that is not its own, take a word for what it is not, or fail an assertion, the answer is
`none`; what `malloc` and the collector's allocator answer is an argument.
-/

import ProntoScript.Foundation.Malloc
import Mathlib.Algebra.Group.Nat.Defs

namespace ProntoScript

open HeapBlocks

/-! ### Lengths and flags -/

/-- How many values a `size_t` has. -/
def sizeT (w : ℕ) : ℕ := 2 ^ (2 * w + 2)

/-- How many `jschar`s the address space has. -/
def addressLimit (w : ℕ) : ℕ := 2 ^ (2 * w + 1)

/-- `JSSTRFLAG_DEPENDENT`. Source: line 95 of `js/src/jsstr.h`. -/
def strflagDependent (w : ℕ) : ℕ := 1 <<< (2 * w)

/-- `JSSTRFLAG_PREFIX`. Source: line 96 of `js/src/jsstr.h`. -/
def strflagPrefix (w : ℕ) : ℕ := 2 <<< (2 * w)

/-- `JSSTRING_LENGTH_MASK`. -/
def stringLengthMask (w : ℕ) : ℕ := 2 ^ (2 * w) - 1

/-- `JSSTRDEP_LENGTH_MASK`, and `JSSTRDEP_START_MASK`, which is as wide. -/
def strdepMask (w : ℕ) : ℕ := 2 ^ w - 1

/-- `JSSTRDEP_SET_START_AND_LENGTH`. Source: lines 131-134 of `js/src/jsstr.h`. -/
def startAndLength (w start length : ℕ) : ℕ := strflagDependent w ||| start <<< w ||| length

/-- `JSPREFIX_SET_LENGTH`. Source: lines 135-136 of `js/src/jsstr.h`. -/
def prefixLength (w length : ℕ) : ℕ := strflagDependent w ||| strflagPrefix w ||| length

/-- `JSSTRDEP_RECURSION_LIMIT`. Source: line 77 of `js/src/jsstr.c`. -/
def strdepRecursionLimit : ℕ := 100

/-- The second word of a string: `chars`, or `base`. -/
inductive StrRef
  | chars (p : ℕ)
  | base (str : ℕ)
deriving DecidableEq, Repr

/-- A string, with its flags as a thing of the collector: `GCF_MUTABLE` and `GCF_LOCK`.
Source: `JSString`, lines 72-75 of `js/src/jsstr.h`. -/
structure StrThing where
  length : ℕ
  ref : StrRef
  isMutable : Bool
  isLocked : Bool
deriving DecidableEq, Repr

namespace StrThing

variable (w : ℕ) (t : StrThing)

/-- `JSSTRING_IS_DEPENDENT`. Source: line 102 of `js/src/jsstr.h`. -/
def isDependent : Bool := decide (t.length &&& strflagDependent w ≠ 0)

/-- `JSSTRING_IS_PREFIX`. Source: line 103 of `js/src/jsstr.h`. -/
def isPrefix : Bool := decide (t.length &&& strflagPrefix w ≠ 0)

/-- `JSSTRDEP_START`. Source: lines 122-125 of `js/src/jsstr.h`. -/
def strdepStart : ℕ := if t.isPrefix w then 0 else t.length >>> w &&& strdepMask w

/-- `JSSTRDEP_LENGTH`. Source: lines 126-129 of `js/src/jsstr.h`. -/
def strdepLength : ℕ := t.length &&& if t.isPrefix w then stringLengthMask w else strdepMask w

/-- `JSSTRING_LENGTH`. Source: lines 107-109 of `js/src/jsstr.h`. -/
def stringLength : ℕ := if t.isDependent w then t.strdepLength w else t.length

/-- `str->chars`. -/
def chars : Option ℕ :=
  match t.ref with
  | .chars p => some p
  | .base _ => none

/-- `JSSTRDEP_BASE`. Source: line 138 of `js/src/jsstr.h`. -/
def strdepBase : Option ℕ :=
  match t.ref with
  | .chars _ => none
  | .base b => some b

end StrThing

/-- The memory of the characters, and the strings, which are known by their addresses and
lie below `top`.  `locks` is `rt->gcLocksHash`, 0 where it has no entry. -/
structure StrHeap where
  mem : Mem UInt16
  things : ℕ → Option StrThing
  top : ℕ
  emptyString : ℕ
  locks : ℕ → ℕ

/-- What the allocators answer during one call: where the characters go, where they go
when they are moved back, which roots a collection that `js_NewGCThing` makes marks from,
and which thing it finds. -/
structure StrAnswers where
  chars : Option ℕ
  back : Option ℕ
  gc : Option (List ℕ)
  thing : Option ℕ
deriving Repr

/-- Where characters are copied from: the caller, or the heap. -/
inductive CharSource
  | own (cs : List UInt16)
  | at (p : ℕ)

namespace StrHeap

/-- The heap with another string at an address. -/
def set (h : StrHeap) (s : ℕ) (t : StrThing) : StrHeap :=
  { h with things := fun x => if x = s then some t else h.things x }

/-- The heap with a string that it did not have. -/
def add (h : StrHeap) (s : ℕ) (t : StrThing) : StrHeap :=
  { h.set s t with top := max h.top (s + 1) }

/-- Room for `n` `jschar`s: the bytes that are asked for are a `size_t`. -/
def jschars (w n : ℕ) : ℕ := n * 2 % sizeT w / 2

/-- `JS_malloc` of `n` `jschar`s. Source: lines 1576-1589 of `js/src/jsapi.c`. -/
def malloc (w : ℕ) (h : StrHeap) (answer : Option ℕ) (n : ℕ) : Option (StrHeap × ℕ) :=
  (h.mem.malloc (addressLimit w) answer (jschars w n)).map fun (m, p) => ({ h with mem := m }, p)

/-- `JS_realloc` to `n` `jschar`s. Source: lines 1591-1598 of `js/src/jsapi.c`. -/
def realloc (w : ℕ) (h : StrHeap) (p : ℕ) (answer : Option ℕ) (n : ℕ) :
    Option (Option (StrHeap × ℕ)) :=
  (h.mem.realloc (addressLimit w) p answer (jschars w n)).map
    (Option.map fun (m, p) => ({ h with mem := m }, p))

/-- `JS_free`. Source: lines 1600-1605 of `js/src/jsapi.c`. -/
def free (h : StrHeap) (p : ℕ) : Option StrHeap := (h.mem.free p).map fun m => { h with mem := m }

/-- `js_strncpy`. Source: line 416 of `js/src/jsstr.h`. -/
def strncpy (h : StrHeap) (dst : ℕ) (src : CharSource) (n : ℕ) : Option StrHeap :=
  let r := match src with
    | .own cs => h.mem.stores dst (cs.take n)
    | .at p => h.mem.copy dst p n
  r.map fun m => { h with mem := m }

/-- `s[n] = 0`. -/
def terminate (h : StrHeap) (s n : ℕ) : Option StrHeap :=
  (h.mem.stores (s + n) [0]).map fun m => { h with mem := m }

/-! ### The collector -/

/-- `MARK_GC_THING` of a string: only from a string of type `GCX_MUTABLE_STRING` on does
it follow the base. Source: lines 1084-1287 of `js/src/jsgc.c`. -/
def markString (w : ℕ) (h : StrHeap) : ℕ → (ℕ → Bool) → ℕ → Option (ℕ → Bool)
  | 0, _, _ => none
  | fuel + 1, marks, s => do
      let t ← h.things s
      if marks s then some marks
      else
        let marks := fun x => if x = s then true else marks x
        if t.isMutable && t.isDependent w then
          let b ← t.strdepBase
          h.markString w fuel marks b
        else some marks

/-- `js_FinalizeStringRT`. Source: lines 2704-2726 of `js/src/jsstr.c`. -/
def finalizeString (w : ℕ) (h : StrHeap) (t : StrThing) : Option StrHeap :=
  if t.isDependent w then some h
  else do
    let p ← t.chars
    if p = 0 then some h else h.free p

/-- The sweep of one thing. -/
def sweepThing (w : ℕ) (marks : ℕ → Bool) (h : StrHeap) (s : ℕ) : Option StrHeap :=
  match h.things s with
  | none => some h
  | some t =>
      if marks s || t.isLocked then some h
      else do
        let h ← h.finalizeString w t
        some { h with things := fun x => if x = s then none else h.things x }

/-- The things of `rt->gcLocksHash`, which `gc_lock_marker` marks. Source: lines 1495-1504
of `js/src/jsgc.c`. -/
def lockedThings (h : StrHeap) : List ℕ := (List.range h.top).filter fun s => decide (0 < h.locks s)

/-- The marks of `js_GC`. Source: lines 1530-1989 of `js/src/jsgc.c`. -/
def markPhase (w : ℕ) (h : StrHeap) (roots : List ℕ) : Option (ℕ → Bool) :=
  (roots ++ h.lockedThings).foldlM (h.markString w (h.top + 1)) fun _ => false

/-- `js_GC`, as far as strings are concerned. Source: lines 1530-1989 of `js/src/jsgc.c`. -/
def gc (w : ℕ) (h : StrHeap) (roots : List ℕ) : Option StrHeap := do
  let marks ← h.markPhase w roots
  (List.range h.top).foldlM (sweepThing w marks) h

/-- `js_LockGCThingRT` of a string, with whether there is memory for an entry in the
table. `GC_TYPE_IS_STRING` is true of `GCX_STRING` and not of `GCX_MUTABLE_STRING`.
Source: lines 733-796 of `js/src/jsgc.c`. -/
def lockGCThing (w : ℕ) (h : StrHeap) (answer : Bool) (s : ℕ) : Option (StrHeap × Bool) := do
  let t ← h.things s
  let deep := !t.isMutable && t.isDependent w
  let h' := h.set s { t with isLocked := true }
  if t.isLocked || deep then
    if answer then
      let count := if h.locks s = 0 then (if deep then 1 else 2) else h.locks s + 1
      some ({ h' with locks := fun x => if x = s then count else h.locks x }, true)
    else some (h, false)
  else some (h', true)

/-- `js_UnlockGCThingRT` of a string. Source: lines 798-833 of `js/src/jsgc.c`. -/
def unlockGCThing (w : ℕ) (h : StrHeap) (s : ℕ) : Option StrHeap := do
  let t ← h.things s
  if t.isLocked then
    let h' := h.set s { t with isLocked := false }
    if h.locks s = 0 then
      -- `JS_ASSERT(!GC_THING_IS_DEEP(flags & GCF_TYPEMASK, thing))`
      if !t.isMutable && t.isDependent w then none else some h'
    else
      let locks := fun x => if x = s then h.locks s - 1 else h.locks x
      if h.locks s - 1 ≠ 0 then some { h with locks := locks } else some { h' with locks := locks }
  else some h

/-- The collection that `js_NewGCThing` may make. -/
def lastDitchGC (w : ℕ) (h : StrHeap) : Option (List ℕ) → Option StrHeap
  | none => some h
  | some roots => h.gc w roots

/-- `js_NewGCThing`, and the fields that its callers set. Source: lines 549-704 of
`js/src/jsgc.c`. -/
def newGCThing (w : ℕ) (h : StrHeap) (o : StrAnswers) (t : StrThing) :
    Option (StrHeap × Option ℕ) := do
  let h ← h.lastDitchGC w o.gc
  match o.thing.filter fun s => (h.things s).isNone with
  | none => some (h, none)
  | some s => some (h.add s t, some s)

/-- `js_NewString`. Source: lines 2519-2545 of `js/src/jsstr.c`. -/
def newString (w : ℕ) (h : StrHeap) (o : StrAnswers) (chars length : ℕ)
    (isMutable isLocked : Bool) : Option (StrHeap × Option ℕ) :=
  if length > stringLengthMask w then some (h, none)
  else h.newGCThing w o ⟨length, .chars chars, isMutable, isLocked⟩

/-- `js_NewString`, and `JS_free` of the characters where it fails. -/
def newStringOrFree (w : ℕ) (h : StrHeap) (o : StrAnswers) (chars length : ℕ)
    (isMutable isLocked : Bool) : Option (StrHeap × Option ℕ) := do
  let (h, str) ← h.newString w o chars length isMutable isLocked
  match str with
  | some s => some (h, some s)
  | none => do
      let h ← h.free chars
      some (h, none)

/-- `js_NewStringCopyN`. Source: lines 2633-2648 of `js/src/jsstr.c`. -/
def newStringCopyN (w : ℕ) (h : StrHeap) (o : StrAnswers) (src : CharSource) (n : ℕ)
    (isMutable isLocked : Bool) : Option (StrHeap × Option ℕ) :=
  match h.malloc w o.chars (n + 1) with
  | none => some (h, none)
  | some (h, news) => do
      let h ← h.strncpy news src n
      let h ← h.terminate news n
      h.newStringOrFree w o news n isMutable isLocked

/-! ### Dependent strings -/

/-- The loop of `js_MinimizeDependentStrings`, to the first base that is not dependent. -/
def chaseBase (w : ℕ) (h : StrHeap) : ℕ → ℕ → ℕ → Option (ℕ × ℕ)
  | 0, _, _ => none
  | fuel + 1, start, base => do
      let t ← h.things base
      let start := (start + t.strdepStart w) % sizeT w
      let base ← t.strdepBase
      let b ← h.things base
      if b.isDependent w then h.chaseBase w fuel start base else some (start, base)

/-- The end of `js_MinimizeDependentStrings`: `str` depends on `base` from `start` on, where
its word can say so. -/
def rebase (w : ℕ) (h : StrHeap) (str start base : ℕ) : Option (StrHeap × ℕ × ℕ) := do
  let t ← h.things str
  if start = 0 then
    -- `JS_ASSERT(JSSTRING_IS_PREFIX(str))`
    if t.isPrefix w then some (h.set str { t with ref := .base base }, start, base) else none
  else if start ≤ strdepMask w then
    let length := startAndLength w start (t.strdepLength w)
    some (h.set str { t with length := length, ref := .base base }, start, base)
  else some (h, start, base)

/-- `js_MinimizeDependentStrings`, with how much deeper it may recurse.  The answer is the
start, and the base that the C code stores through `basep`. Source: lines 79-108 of
`js/src/jsstr.c`. -/
def minimizeDependentStrings (w : ℕ) : ℕ → StrHeap → ℕ → Option (StrHeap × ℕ × ℕ)
  | levels, h, str => do
      let t ← h.things str
      let base ← t.strdepBase
      let start := t.strdepStart w
      let b ← h.things base
      if b.isDependent w then
        match levels with
        | levels + 1 => do
            let (h, more, base) ← minimizeDependentStrings w levels h base
            h.rebase w str ((start + more) % sizeT w) base
        | 0 => do
            let (start, base) ← h.chaseBase w h.top start base
            h.rebase w str start base
      else some (h, start, base)

/-- `js_GetDependentStringChars`. Source: lines 110-120 of `js/src/jsstr.c`. -/
def getDependentStringChars (w : ℕ) (h : StrHeap) (str : ℕ) : Option (StrHeap × ℕ) := do
  let (h, start, base) ← minimizeDependentStrings w strdepRecursionLimit h str
  let b ← h.things base
  let p ← b.chars
  -- `JS_ASSERT(start < base->length)`
  if start < b.length then some (h, p + start) else none

/-- `JSSTRDEP_CHARS`. Source: lines 143-146 of `js/src/jsstr.h`. -/
def strdepChars (w : ℕ) (h : StrHeap) (str : ℕ) : Option (StrHeap × ℕ) := do
  let t ← h.things str
  let base ← t.strdepBase
  let b ← h.things base
  if b.isDependent w then h.getDependentStringChars w str
  else do
    let p ← b.chars
    some (h, p + t.strdepStart w)

/-- `JSSTRING_CHARS`. Source: lines 104-106 of `js/src/jsstr.h`. -/
def stringChars (w : ℕ) (h : StrHeap) (str : ℕ) : Option (StrHeap × ℕ) := do
  let t ← h.things str
  if t.isDependent w then h.strdepChars w str
  else do
    let p ← t.chars
    some (h, p)

/-- `js_UndependString`.  The answer is the characters, or `NULL`. Source: lines 218-249
of `js/src/jsstr.c`. -/
def undependString (w : ℕ) (h : StrHeap) (answer : Option ℕ) (str : ℕ) :
    Option (StrHeap × Option ℕ) := do
  let t ← h.things str
  if t.isDependent w then
    let n := t.strdepLength w
    match h.malloc w answer (n + 1) with
    | none => some (h, none)
    | some (h, s) => do
        let (h, p) ← h.strdepChars w str
        let h ← h.strncpy s (.at p) n
        let h ← h.terminate s n
        let t ← h.things str
        some (h.set str { t with length := n, ref := .chars s }, some s)
  else do
    let p ← t.chars
    some (h, some p)

/-- `js_GetStringChars`. Source: lines 122-130 of `js/src/jsstr.c`. -/
def getStringChars (w : ℕ) (h : StrHeap) (answer : Option ℕ) (str : ℕ) :
    Option (StrHeap × Option ℕ) := do
  let (h, p) ← h.undependString w answer str
  match p with
  | none => some (h, none)
  | some p => do
      let t ← h.things str
      some (h.set str { t with isMutable := false }, some p)

/-- `js_NewDependentString`. Source: lines 2547-2592 of `js/src/jsstr.c`. -/
def newDependentString (w : ℕ) (h : StrHeap) (o : StrAnswers) (base start length : ℕ) :
    Option (StrHeap × Option ℕ) := do
  if length = 0 then some (h, some h.emptyString)
  else
    let b ← h.things base
    if start = 0 ∧ length = b.stringLength w then some (h, some base)
    else if start > strdepMask w ∨ (start ≠ 0 ∧ length > strdepMask w) then
      let (h, p) ← h.stringChars w base
      h.newStringCopyN w o (.at (p + start)) length false false
    else
      let word := if start = 0 then prefixLength w length else startAndLength w start length
      h.newGCThing w o ⟨word, .base base, true, false⟩

/-! ### Concatenation -/

/-- `js_ConcatStrings` where `left` has no buffer that could be grown. -/
def concatCopy (w : ℕ) (h : StrHeap) (o : StrAnswers) (left : ℕ) (ln rs rn : ℕ) :
    Option (StrHeap × Option ℕ) := do
  let (h, ls) ← h.stringChars w left
  match h.malloc w o.chars (ln + rn + 1) with
  | none => some (h, none)
  | some (h, s) => do
      let h ← h.strncpy s (.at ls) ln
      let h ← h.strncpy (s + ln) (.at rs) rn
      let h ← h.terminate s (ln + rn)
      h.newStringOrFree w o s (ln + rn) true false

/-- The clean-up where there is no string for the grown buffer, which `left` keeps. -/
def shrinkBack (w : ℕ) (h : StrHeap) (o : StrAnswers) (left ln s : ℕ) :
    Option (StrHeap × Option ℕ) := do
  let l ← h.things left
  match ← h.realloc w s o.back (ln + 1) with
  | none => some (h, none)
  | some (h, s) => some (h.set left { l with ref := .chars s }, none)

/-- `js_ConcatStrings` once `left` has a buffer that is large enough. -/
def concatInto (w : ℕ) (h : StrHeap) (o : StrAnswers) (left ln s rs rn : ℕ) :
    Option (StrHeap × Option ℕ) := do
  let h ← h.strncpy (s + ln) (.at rs) rn
  let h ← h.terminate s (ln + rn)
  let (h, str) ← h.newString w o s (ln + rn) true false
  match str with
  | some str => do
      let l ← h.things left
      some (h.set left { l with length := prefixLength w ln, ref := .base str }, some str)
  | none => h.shrinkBack w o left ln s

/-- `js_ConcatStrings` where the buffer of `left` is grown. -/
def concatGrow (w : ℕ) (h : StrHeap) (o : StrAnswers) (left : ℕ) (ln rs rn : ℕ) :
    Option (StrHeap × Option ℕ) := do
  let l ← h.things left
  let ls ← l.chars
  match ← h.realloc w ls o.chars (ln + rn + 1) with
  | none => some (h, none)
  | some (h, s) =>
      -- right may depend on left, whose characters have moved
      let lrdist := (rs + sizeT w - ls) % sizeT w
      let rs := if lrdist < ln then s + lrdist else rs
      (h.set left { l with ref := .chars s }).concatInto w o left ln s rs rn

/-- `js_ConcatStrings`. Source: lines 132-212 of `js/src/jsstr.c`. -/
def concatStrings (w : ℕ) (h : StrHeap) (o : StrAnswers) (left right : ℕ) :
    Option (StrHeap × Option ℕ) := do
  let r ← h.things right
  let rn := r.stringLength w
  let (h, rs) ← h.stringChars w right
  if rn = 0 then some (h, some left)
  else
    let l ← h.things left
    let ln := l.stringLength w
    if ln = 0 then some (h, some right)
    else if l.isDependent w || !l.isMutable then h.concatCopy w o left ln rs rn
    else h.concatGrow w o left ln rs rn

/-- `js_InitRuntimeStringState`: the empty string, which no collection frees. Source:
lines 2466-2489 of `js/src/jsstr.c`. -/
def initRuntimeStringState (w : ℕ) (o : StrAnswers) : Option (Option StrHeap) := do
  let h : StrHeap := ⟨Mem.empty, fun _ => none, 0, 0, fun _ => 0⟩
  let (h, empty) ← h.newStringCopyN w o (.own []) 0 false true
  match empty with
  | none => some none
  | some s => some (some { h with emptyString := s })

end StrHeap

end ProntoScript
