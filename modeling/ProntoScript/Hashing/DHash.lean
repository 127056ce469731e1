/-
# Double hashing

`jsdhash.c`, the engine's tables for roots, locked things and whatever is looked up often.
An entry is a key hash with the members that the table's user adds, here its `body`.  Hash
codes 0 and 1 say that the entry is free, or removed; the lowest bit of another one is the
collision flag.

The loop of `SearchTable` has no bound.  It comes back to where it was after as many steps
as there are entries, so `searchTable` takes that many and is `none` if it went through
them all: the call does not return.

The answers from outside are arguments: whether `allocTable` found memory, and what
`initEntry` did, if there is one.
-/

import Mathlib.Algebra.Group.Nat.Defs
import Mathlib.Algebra.Group.Int.Defs
import Mathlib.Logic.Function.Basic

namespace ProntoScript

/-- `JSDHashNumber`. -/
abbrev DHashNumber := BitVec 32

/-- An entry: the header's `keyHash`, and what its user keeps behind the header. Source:
`JSDHashEntryHdr`, lines 111-113 of `js/src/jsdhash.h`. -/
structure DHashEntry (β : Type*) where
  keyHash : DHashNumber
  body : β
  deriving DecidableEq

/-- `JSDHashTableOps`: the callbacks that only look at a key or an entry.  `clearEntry`
leaves the members `cleared`, and `moveEntry` copies them. Source: lines 336-349 of
`js/src/jsdhash.h`. -/
structure DHashOps (κ β : Type*) where
  getKey : β → κ
  hashKey : κ → DHashNumber
  matchEntry : β → κ → Bool
  cleared : β

/-- `JSDHashTable`. Source: lines 191-223 of `js/src/jsdhash.h`. -/
structure DHashTable (β : Type*) where
  hashShift : ℕ
  maxAlphaFrac : ℕ
  minAlphaFrac : ℕ
  entryCount : ℕ
  removedCount : ℕ
  generation : ℕ
  entryStore : ℕ → DHashEntry β

/-- `JSDHashOperator`. Source: lines 471-477 of `js/src/jsdhash.h`. -/
inductive DHashOperator
  | lookup
  | add
  | remove
  deriving DecidableEq

namespace DHash

/-- Unsigned words of 32 bits wrap around. -/
def uint32 (n : ℕ) : ℕ := n % 2 ^ 32

/-- `++` on an unsigned word. -/
def increment (n : ℕ) : ℕ := uint32 (n + 1)

/-- `--` on an unsigned word. -/
def decrement (n : ℕ) : ℕ := uint32 (n + 2 ^ 32 - 1)

/-- `JS_DHASH_BITS`. Source: line 73 of `js/src/jsdhash.h`. -/
def bits : ℕ := 32

/-- `JS_DHASH_GOLDEN_RATIO`. Source: line 74 of `js/src/jsdhash.h`. -/
def goldenRatio : DHashNumber := 0x9E3779B9#32

/-- `JS_DHASH_MIN_SIZE`. Source: line 64 of `js/src/jsdhash.h`. -/
def minSize : ℕ := 16

/-- `JS_DHASH_SIZE_LIMIT`. Source: line 60 of `js/src/jsdhash.h`. -/
def sizeLimit : ℕ := 2 ^ 24

/-- `COLLISION_FLAG`. Source: line 299 of `js/src/jsdhash.c`. -/
def collisionFlag : DHashNumber := 1#32

/-- `HASH1`. Source: line 284 of `js/src/jsdhash.c`. -/
def hash1 (hash0 : DHashNumber) (shift : ℕ) : DHashNumber := hash0 >>> shift

/-- `HASH2`, odd so that it is relatively prime to the size of the table. Source: line 285
of `js/src/jsdhash.c`. -/
def hash2 (hash0 : DHashNumber) (log2 shift : ℕ) : DHashNumber :=
  ((hash0 <<< log2) >>> shift) ||| 1#32

/-- `JS_BITMASK`. Source: line 200 of `js/src/jstypes.h`. -/
def bitMask (n : ℕ) : DHashNumber := (1#32 <<< n) - 1#32

/-- The next `hash1` of a search. -/
def nextHash (hash1 hash2 sizeMask : DHashNumber) : DHashNumber := (hash1 - hash2) &&& sizeMask

/-- `JS_CEILING_LOG2`. Source: lines 72-88 of `js/src/jsbit.h`. -/
def ceilingLog2 (n : ℕ) : ℕ :=
  let log2 := if n &&& decrement n ≠ 0 then 1 else 0
  let (log2, n) := if n >>> 16 ≠ 0 then (log2 + 16, n >>> 16) else (log2, n)
  let (log2, n) := if n >>> 8 ≠ 0 then (log2 + 8, n >>> 8) else (log2, n)
  let (log2, n) := if n >>> 4 ≠ 0 then (log2 + 4, n >>> 4) else (log2, n)
  let (log2, n) := if n >>> 2 ≠ 0 then (log2 + 2, n >>> 2) else (log2, n)
  if n >>> 1 ≠ 0 then log2 + 1 else log2

end DHash

open DHash

namespace DHashEntry

variable {β : Type*}

/-- `JS_DHASH_ENTRY_IS_FREE`. Source: line 115 of `js/src/jsdhash.h`. -/
def isFree (e : DHashEntry β) : Bool := e.keyHash == 0#32

/-- `ENTRY_IS_REMOVED`. Source: line 302 of `js/src/jsdhash.c`. -/
def isRemoved (e : DHashEntry β) : Bool := e.keyHash == 1#32

/-- `JS_DHASH_ENTRY_IS_LIVE`. Source: line 117 of `js/src/jsdhash.h`. -/
def isLive (e : DHashEntry β) : Bool := 2#32 ≤ e.keyHash

/-- `MATCH_ENTRY_KEYHASH`. Source: lines 307-308 of `js/src/jsdhash.c`. -/
def matchKeyHash (e : DHashEntry β) (hash0 : DHashNumber) : Bool :=
  (e.keyHash &&& ~~~collisionFlag) == hash0

/-- `entry->keyHash |= COLLISION_FLAG`. -/
def collide (e : DHashEntry β) : DHashEntry β := { e with keyHash := e.keyHash ||| collisionFlag }

end DHashEntry

namespace DHashTable

variable {κ β σ : Type*} (ops : DHashOps κ β)

/-- `JS_DHASH_TABLE_SIZE`. Source: line 230 of `js/src/jsdhash.h`. -/
def size (t : DHashTable β) : ℕ := 2 ^ (bits - t.hashShift)

/-- `MAX_LOAD`. Source: line 235 of `js/src/jsdhash.c`. -/
def maxLoad (t : DHashTable β) (size : ℕ) : ℕ := (t.maxAlphaFrac * size) >>> 8

/-- `MIN_LOAD`. Source: line 236 of `js/src/jsdhash.c`. -/
def minLoad (t : DHashTable β) (size : ℕ) : ℕ := (t.minAlphaFrac * size) >>> 8

/-- The entry at an index is written. -/
def setEntry (t : DHashTable β) (i : ℕ) (e : DHashEntry β) : DHashTable β :=
  { t with entryStore := Function.update t.entryStore i e }

/-- The members behind the header of an entry are written. -/
def setBody (t : DHashTable β) (i : ℕ) (b : β) : DHashTable β :=
  t.setEntry i { t.entryStore i with body := b }

/-- `JS_DHashTableInit`, with the capacity wanted and the answer of `allocTable`. Source:
lines 188-230 of `js/src/jsdhash.c`. -/
def init (capacity : ℕ) (alloc : Bool) : Option (DHashTable β) :=
  let capacity := if capacity < minSize then minSize else capacity
  let log2 := ceilingLog2 capacity
  if 2 ^ log2 ≥ sizeLimit then none
  else if !alloc then none
  else some
    { hashShift := bits - log2
      maxAlphaFrac := 0xC0
      minAlphaFrac := 0x40
      entryCount := 0
      removedCount := 0
      generation := 0
      entryStore := fun _ => ⟨0#32, ops.cleared⟩ }

/-- The loop of `SearchTable`, for at most `fuel` rounds. Source: lines 353-426 of
`js/src/jsdhash.c`. -/
def searchLoop (key : κ) (keyHash hash2 sizeMask : DHashNumber) (op : DHashOperator) :
    (fuel : ℕ) → (hash1 : DHashNumber) → (firstRemoved : Option ℕ) → (t : DHashTable β) →
    Option (ℕ × DHashTable β)
  | 0, _, _, _ => none
  | fuel + 1, hash1, firstRemoved, t =>
      let hash1 := nextHash hash1 hash2 sizeMask
      let entry := t.entryStore hash1.toNat
      if entry.isFree then
        match firstRemoved, op with
        | some removed, .add => some (removed, t)
        | _, _ => some (hash1.toNat, t)
      else if entry.matchKeyHash keyHash && ops.matchEntry entry.body key then
        some (hash1.toNat, t)
      else if entry.isRemoved then
        searchLoop key keyHash hash2 sizeMask op fuel hash1
          (if firstRemoved = none then some hash1.toNat else firstRemoved) t
      else
        searchLoop key keyHash hash2 sizeMask op fuel hash1 firstRemoved
          (if op = .add then t.setEntry hash1.toNat entry.collide else t)

/-- `SearchTable`: the index of the entry, with the collision flags that an addition sets.
Source: lines 353-426 of `js/src/jsdhash.c`. -/
def searchTable (t : DHashTable β) (key : κ) (keyHash : DHashNumber) (op : DHashOperator) :
    Option (ℕ × DHashTable β) :=
  let hash1 := DHash.hash1 keyHash t.hashShift
  let entry := t.entryStore hash1.toNat
  -- miss: space for a new entry
  if entry.isFree then some (hash1.toNat, t)
  -- hit
  else if entry.matchKeyHash keyHash && ops.matchEntry entry.body key then some (hash1.toNat, t)
  else
    -- collision: double hash
    let sizeLog2 := bits - t.hashShift
    let hash2 := DHash.hash2 keyHash sizeLog2 t.hashShift
    let sizeMask := bitMask sizeLog2
    if entry.isRemoved then
      searchLoop ops key keyHash hash2 sizeMask op t.size hash1 (some hash1.toNat) t
    else
      searchLoop ops key keyHash hash2 sizeMask op t.size hash1 none
        (if op = .add then t.setEntry hash1.toNat entry.collide else t)

/-- The loop of `ChangeTable` that copies the live entries of the old store. Source:
lines 428-481 of `js/src/jsdhash.c`. -/
def copyLive (oldStore : ℕ → DHashEntry β) : (indices : List ℕ) → (t : DHashTable β) →
    Option (DHashTable β)
  | [], t => some t
  | i :: indices, t =>
      if (oldStore i).isLive then
        let oldEntry : DHashEntry β :=
          { oldStore i with keyHash := (oldStore i).keyHash &&& ~~~collisionFlag }
        match searchTable ops t (ops.getKey oldEntry.body) oldEntry.keyHash .add with
        | none => none
        | some (newEntry, t) => copyLive oldStore indices (t.setEntry newEntry oldEntry)
      else copyLive oldStore indices t

/-- `ChangeTable`, with the answer of `allocTable`. Source: lines 428-481 of
`js/src/jsdhash.c`. -/
def changeTable (t : DHashTable β) (deltaLog2 : ℤ) (alloc : Bool) :
    Option (Bool × DHashTable β) :=
  let oldLog2 := bits - t.hashShift
  let newLog2 := ((oldLog2 : ℤ) + deltaLog2).toNat
  let oldCapacity := 2 ^ oldLog2
  let newCapacity := 2 ^ newLog2
  if newCapacity ≥ sizeLimit then some (false, t)
  else if !alloc then some (false, t)
  else
    let changed : DHashTable β :=
      { t with
        hashShift := bits - newLog2
        removedCount := 0
        generation := increment t.generation
        entryStore := fun _ => ⟨0#32, ops.cleared⟩ }
    match copyLive ops t.entryStore (List.range oldCapacity) changed with
    | none => none
    | some t => some (true, t)

/-- `JS_DHashTableRawRemove`. Source: lines 584-600 of `js/src/jsdhash.c`. -/
def rawRemove (t : DHashTable β) (entry : ℕ) : DHashTable β :=
  let keyHash := (t.entryStore entry).keyHash
  let t := t.setBody entry ops.cleared
  let t :=
    if keyHash &&& collisionFlag ≠ 0#32 then
      { t.setEntry entry ⟨1#32, ops.cleared⟩ with removedCount := increment t.removedCount }
    else t.setEntry entry ⟨0#32, ops.cleared⟩
  { t with entryCount := decrement t.entryCount }

/-- The key hash that an entry of the key stores: the user's hash code, scrambled, without
the codes of free and removed entries and without the flag. Source:
`JS_DHashTableOperate`, lines 483-582 of `js/src/jsdhash.c`. -/
def keyHashOf (key : κ) : DHashNumber :=
  let keyHash := ops.hashKey key * goldenRatio
  -- ENSURE_LIVE_KEYHASH
  let keyHash := if keyHash < 2#32 then keyHash - 2#32 else keyHash
  keyHash &&& ~~~collisionFlag

/-- The case `JS_DHASH_LOOKUP` of `JS_DHashTableOperate`. Source: lines 483-582 of
`js/src/jsdhash.c`. -/
def lookup (t : DHashTable β) (key : κ) : Option (ℕ × DHashTable β) :=
  searchTable ops t key (keyHashOf ops key) .lookup

/-- What a new entry is given: what `initEntry` makes of it, where there is one. -/
inductive InitEntry (β : Type*)
  | absent
  | fails
  | sets (b : β)
  deriving DecidableEq

/-- The rest of `JS_DHASH_ADD`, after the table may have grown: the entry is looked for,
and claimed when it is not live.  The result is null when `initEntry` fails. -/
def addEntry (t : DHashTable β) (key : κ) (initEntry : InitEntry β) :
    Option (Option ℕ × DHashTable β) :=
  let keyHash := keyHashOf ops key
  match searchTable ops t key keyHash .add with
  | none => none
  | some (entry, t) =>
      if (t.entryStore entry).isLive then some (some entry, t)
      else
        let isRemoved := (t.entryStore entry).isRemoved
        let t := if isRemoved then { t with removedCount := decrement t.removedCount }
          else t
        let keyHash := if isRemoved then keyHash ||| collisionFlag else keyHash
        let claim (t : DHashTable β) : DHashTable β :=
          { t.setEntry entry { t.entryStore entry with keyHash := keyHash } with
            entryCount := increment t.entryCount }
        match initEntry with
        | .absent => some (some entry, claim t)
        | .fails => some (none, t.setBody entry ops.cleared)
        | .sets b => some (some entry, claim (t.setBody entry b))

/-- The growth before an addition: whether the addition may go on, and the table. -/
def grow (t : DHashTable β) (alloc : Bool) : Option (Bool × DHashTable β) :=
  let size := t.size
  if uint32 (t.entryCount + t.removedCount) ≥ t.maxLoad size then
    -- compress if a quarter or more of all entries are removed
    let deltaLog2 := if t.removedCount ≥ size >>> 2 then 0 else 1
    match changeTable ops t deltaLog2 alloc with
    | none => none
    | some (changed, t) =>
        -- falling through might claim the last free entry
        some (!(!changed && uint32 (t.entryCount + t.removedCount) == size - 1), t)
  else some (true, t)

/-- The case `JS_DHASH_ADD` of `JS_DHashTableOperate`. Source: lines 483-582 of
`js/src/jsdhash.c`. -/
def add (t : DHashTable β) (key : κ) (alloc : Bool) (initEntry : InitEntry β) :
    Option (Option ℕ × DHashTable β) :=
  match grow ops t alloc with
  | none => none
  | some (goesOn, t) => if goesOn then addEntry ops t key initEntry else some (none, t)

/-- The case `JS_DHASH_REMOVE` of `JS_DHashTableOperate`. Source: lines 483-582 of
`js/src/jsdhash.c`. -/
def remove (t : DHashTable β) (key : κ) (alloc : Bool) : Option (DHashTable β) :=
  match searchTable ops t key (keyHashOf ops key) .remove with
  | none => none
  | some (entry, t) =>
      if (t.entryStore entry).isLive then
        let t := rawRemove ops t entry
        let size := t.size
        if size > minSize ∧ t.entryCount ≤ t.minLoad size then
          (changeTable ops t (-1) alloc).map Prod.snd
        else some t
      else some t

/-- What an enumerator asks for: `JS_DHASH_REMOVE` and `JS_DHASH_STOP`, with the argument
as it leaves it. -/
structure Enumerated (σ : Type*) where
  remove : Bool
  stop : Bool
  arg : σ

/-- The loop of `JS_DHashTableEnumerate`: the entries visited, whether one was removed,
the table and the argument. Source: lines 602-655 of `js/src/jsdhash.c`. -/
def enumerateLoop (etor : β → ℕ → σ → Enumerated σ) : (indices : List ℕ) → (i : ℕ) →
    (didRemove : Bool) → (t : DHashTable β) → (arg : σ) → ℕ × Bool × DHashTable β × σ
  | [], i, didRemove, t, arg => (i, didRemove, t, arg)
  | entry :: indices, i, didRemove, t, arg =>
      if (t.entryStore entry).isLive then
        let op := etor (t.entryStore entry).body i arg
        let t := if op.remove then rawRemove ops t entry else t
        if op.stop then (i + 1, didRemove || op.remove, t, op.arg)
        else enumerateLoop etor indices (i + 1) (didRemove || op.remove) t op.arg
      else enumerateLoop etor indices i didRemove t arg

/-- `JS_DHashTableEnumerate`. Source: lines 602-655 of `js/src/jsdhash.c`. -/
def enumerate (t : DHashTable β) (etor : β → ℕ → σ → Enumerated σ) (arg : σ) (alloc : Bool) :
    Option (ℕ × DHashTable β × σ) :=
  let capacity := t.size
  let (i, didRemove, t, arg) := enumerateLoop ops etor (List.range capacity) 0 false t arg
  if didRemove ∧ (t.removedCount ≥ capacity >>> 2 ∨
      capacity > minSize ∧ t.entryCount ≤ t.minLoad capacity) then
    let capacity := t.entryCount
    let capacity := capacity + capacity >>> 1
    let capacity := if capacity < minSize then minSize else capacity
    let ceiling : ℤ := (ceilingLog2 capacity : ℤ) - (bits - t.hashShift : ℕ)
    (changeTable ops t ceiling alloc).map fun (_, t) => (i, t, arg)
  else some (i, t, arg)

end DHashTable

end ProntoScript
