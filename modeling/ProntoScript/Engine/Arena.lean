/-
# Arenas

An arena pool (`js/src/jsarena.h`, `js/src/jsarena.c`) hands out memory from a list of
arenas and gives back at one stroke everything allocated since a mark.  The pool of the
stack is aligned to `sizeof(jsval)`, 8 bytes.  Addresses are numbers below `2 ^ 64`;
the one computation that leaves that range, and wraps, is `JS_UPTRDIFF`.

A release has nothing but the mark to tell which arena it is in.  The block of an arena
begins with its header, so that no address is in two arenas, not even as the end of one
(`Arena.Apart`); and the arena that allocations are made from is the last of the list.
Whatever was allocated since, a release to the mark of a pool leaves that pool
(`ArenaPool.release_of_extends`).
-/

import Mathlib.Algebra.Group.Nat.Defs
import Mathlib.Data.List.Basic
import Mathlib.Tactic.SplitIfs

namespace ProntoScript

/-- `JS_UPTRDIFF(p, q)`, a difference of `jsuword`s. Source: `JS_UPTRDIFF`, line 168 of
`js/src/jsarena.h`. -/
def uptrDiff (p q : ℕ) : ℕ := (p + 2 ^ 64 - q) % 2 ^ 64

/-- `JS_ARENA_ALIGN`. Source: lines 103-104 of `js/src/jsarena.h`. -/
def arenaAlign (n : ℕ) : ℕ := (n + 7) / 8 * 8

/-- `JSArena`, with its own address.  The link to the next arena is the list it is in.
Source: lines 58-63 of `js/src/jsarena.h`. -/
structure Arena where
  addr : ℕ
  base : ℕ
  limit : ℕ
  avail : ℕ
deriving DecidableEq, Repr

/-- `sizeof(JSArena)`. -/
def Arena.size : ℕ := 32

/-- `JSArenaPool`: the arenas before the current one, the latest first, the current one
and those after it.  The first arena of the list, `pool->first`, is part of the pool.
Source: lines 87-95 of `js/src/jsarena.h`. -/
structure ArenaPool where
  below : List Arena
  current : Arena
  next : List Arena
  arenasize : ℕ
deriving DecidableEq, Repr

namespace Arena

/-- There is room for `nb` bytes: `nb <= a->limit && a->avail <= a->limit - nb`. -/
def fits (a : Arena) (nb : ℕ) : Bool := decide (nb ≤ a.limit) && decide (a.avail ≤ a.limit - nb)

/-- Claim `nb` bytes. -/
def take (a : Arena) (nb : ℕ) : Arena := { a with avail := a.avail + nb }

/-- `JS_UPTRDIFF(mark, a->base) <= JS_UPTRDIFF(a->avail, a->base)`. -/
def contains (a : Arena) (mark : ℕ) : Bool :=
  decide (uptrDiff mark a.base ≤ uptrDiff a.avail a.base)

/-- Give back what was allocated since the mark. -/
def retract (a : Arena) (mark : ℕ) : Arena := { a with avail := arenaAlign mark }

/-- `HEADER_SIZE(pool)` for an allocation of more than `arenasize` bytes. Source:
`HEADER_SIZE`, lines 143-146 of `js/src/jsarena.c`. -/
def extra (arenasize nb : ℕ) : ℕ := if arenasize < nb then 8 else 0

/-- How many bytes `JS_ArenaAllocate` asks `malloc` for. -/
def gross (arenasize nb : ℕ) : ℕ := size + extra arenasize nb + 7 + max nb arenasize

/-- The new arena in the block at an address. -/
def claim (arenasize nb addr : ℕ) : Arena :=
  let base := if arenasize < nb then (addr + (size + extra arenasize nb + 7)) / 8 * 8
    else arenaAlign (addr + size)
  ⟨addr, base, addr + gross arenasize nb, base⟩

end Arena

namespace ArenaPool

/-- All arenas, from the first one on. -/
def arenas (pool : ArenaPool) : List Arena := pool.below.reverse ++ pool.current :: pool.next

/-- `JS_ARENA_MARK`. Source: line 167 of `js/src/jsarena.h`. -/
def mark (pool : ArenaPool) : ℕ := pool.current.avail

/-- A block that `malloc` may return, or that may be on the free list: aligned, within the
address space, and none that an arena of the pool uses. -/
def Fresh (pool : ArenaPool) (addr n : ℕ) : Prop :=
  addr % 8 = 0 ∧ addr + n < 2 ^ 64 ∧ ∀ a ∈ pool.arenas, a.limit ≤ addr ∨ addr + n ≤ a.addr

instance (pool : ArenaPool) (addr n : ℕ) : Decidable (pool.Fresh addr n) :=
  inferInstanceAs (Decidable (_ ∧ _))

/-- A new block, from the free list or `malloc`; an answer that is none they could give
counts as `NULL`. -/
def malloc (pool : ArenaPool) (answer : Option ℕ) (n : ℕ) : Option ℕ :=
  answer.filter fun addr => decide (pool.Fresh addr n)

/-- The search of `JS_ArenaAllocate` from an arena on.  A new arena has room for what it
was made for. Source: lines 155-233 of `js/src/jsarena.c`. -/
def allocateFrom (pool : ArenaPool) (nb : ℕ) (answer : Option ℕ) :
    List Arena → List Arena → Arena → ArenaPool × Option ℕ
  | [], below, a =>
      if a.fits nb then
        ({ pool with below := below, current := a.take nb, next := [] }, some a.avail)
      else
        match pool.malloc answer (Arena.gross pool.arenasize nb) with
        | none => ({ pool with below := below, current := a, next := [] }, none)
        | some addr =>
            let b := Arena.claim pool.arenasize nb addr
            ({ pool with below := a :: below, current := b.take nb, next := [] }, some b.avail)
  | b :: next, below, a =>
      if a.fits nb then
        ({ pool with below := below, current := a.take nb, next := b :: next }, some a.avail)
      else allocateFrom pool nb answer next (a :: below) b

/-- `JS_ARENA_ALLOCATE_CAST`. Source: lines 118-119 of `js/src/jsarena.h`. -/
def allocate (pool : ArenaPool) (nb : ℕ) (answer : Option ℕ) : ArenaPool × Option ℕ :=
  let nb := arenaAlign nb
  if pool.current.fits nb then
    ({ pool with current := pool.current.take nb }, some pool.current.avail)
  else pool.allocateFrom nb answer pool.next pool.below pool.current

/-- The search of `JS_ArenaRelease` for the arena of a mark: the arenas before it, the
latest first, the arena and those after it. -/
def findMark (mark : ℕ) : List Arena → List Arena → Option (List Arena × Arena × List Arena)
  | _, [] => none
  | seen, a :: rest =>
      if a.contains mark then some (seen, a, rest) else findMark mark (a :: seen) rest

/-- `JS_ArenaRelease`.  `FreeArenaList` makes the arena of the mark the current one,
unless it is the last one anyway. Source: `JS_ArenaRelease` (lines 360-375),
`FreeArenaList` (lines 319-358) of `js/src/jsarena.c`. -/
def releaseSlow (pool : ArenaPool) (mark : ℕ) : ArenaPool :=
  match findMark mark [] pool.arenas with
  | none => pool
  | some (_, a, []) =>
      match pool.next with
      | [] => { pool with current := a.retract mark }
      | next => { pool with next := next.dropLast ++ [a.retract mark] }
  | some (seen, a, _) => { pool with below := seen, current := a.retract mark, next := [] }

/-- `JS_ARENA_RELEASE`. Source: lines 182-196 of `js/src/jsarena.h`. -/
def release (pool : ArenaPool) (mark : ℕ) : ArenaPool :=
  if pool.below ≠ [] ∧ pool.current.contains mark then
    { pool with current := pool.current.retract mark }
  else pool.releaseSlow mark

end ArenaPool

/-! ### Pools in order -/

/-- The cursor of an arena is between its base and its limit, behind the header. -/
structure Arena.WF (a : Arena) : Prop where
  header : a.addr + size ≤ a.base
  base : a.base ≤ a.avail
  avail : a.avail ≤ a.limit
  limit : a.limit < 2 ^ 64
  aligned : a.avail % 8 = 0

/-- The blocks of two arenas do not overlap. -/
def Arena.Apart (a b : Arena) : Prop := a.limit ≤ b.addr ∨ b.limit ≤ a.addr

/-- The current arena is the last one, and the arenas are in order and apart. -/
structure ArenaPool.WF (pool : ArenaPool) : Prop where
  next : pool.next = []
  arenas : ∀ a ∈ pool.current :: pool.below, a.WF
  apart : (pool.current :: pool.below).Pairwise Arena.Apart

/-- A pool after allocations: the arena that was the current one may be fuller, and there
may be newer ones. -/
def ArenaPool.Extends (pool pool' : ArenaPool) : Prop :=
  pool'.next = pool.next ∧ pool'.arenasize = pool.arenasize ∧
    ∃ newer avail, pool.current.avail ≤ avail ∧
      pool'.current :: pool'.below = newer ++ { pool.current with avail := avail } :: pool.below

section

variable {a b : Arena} {pool pool' pool'' : ArenaPool} {mark nb addr : ℕ} {answer : Option ℕ}

/-- A difference of addresses, where it is one. -/
theorem uptrDiff_of_le {p q : ℕ} (hp : p < 2 ^ 64) (h : q ≤ p) : uptrDiff p q = p - q := by
  unfold uptrDiff
  omega

/-- A difference the other way round is a huge word. -/
theorem uptrDiff_of_lt {p q : ℕ} (hq : q < 2 ^ 64) (h : p < q) :
    uptrDiff p q = p + 2 ^ 64 - q := by
  unfold uptrDiff
  omega

/-- The unsigned comparison tests both ends. -/
theorem Arena.contains_iff (h : a.WF) (hmark : mark < 2 ^ 64) :
    a.contains mark = true ↔ a.base ≤ mark ∧ mark ≤ a.avail := by
  obtain ⟨-, hbase, havail, hlimit, -⟩ := h
  rw [contains, decide_eq_true_iff, uptrDiff_of_le (by omega) hbase]
  rcases Nat.lt_or_ge mark a.base with hlt | hge
  · rw [uptrDiff_of_lt (by omega) hlt]
    omega
  · rw [uptrDiff_of_le hmark hge]
    omega

/-- An address in one arena is in no other. -/
theorem Arena.Apart.not_contains (h : a.Apart b) (ha : a.WF) (hb : b.WF)
    (hmark : b.base ≤ mark ∧ mark ≤ b.avail) : a.contains mark = false := by
  have hlt : mark < 2 ^ 64 := by
    have := hb.avail
    have := hb.limit
    omega
  rw [← Bool.not_eq_true, contains_iff ha hlt]
  obtain ⟨hheader, -, havail, -, -⟩ := ha
  obtain ⟨hheader', -, havail', -, -⟩ := hb
  simp only [size] at hheader hheader'
  rcases h with h | h <;> omega

/-- Two arenas are apart from each other. -/
theorem Arena.Apart.symm (h : a.Apart b) : b.Apart a := Or.symm h

instance : Std.Symm Arena.Apart := ⟨fun _ _ => Arena.Apart.symm⟩

/-- An allocation fits where the arena has that much left. -/
theorem Arena.fits_iff : a.fits nb = true ↔ a.avail + nb ≤ a.limit := by
  rw [fits, Bool.and_eq_true, decide_eq_true_iff, decide_eq_true_iff]
  omega

/-- Sizes that are aligned stay as they are. -/
theorem arenaAlign_of_aligned {n : ℕ} (h : n % 8 = 0) : arenaAlign n = n := by
  unfold arenaAlign
  omega

/-- A new arena lies in its block, and has room for what it was made for. -/
theorem Arena.claim_fits (haddr : addr % 8 = 0) (size nb : ℕ) :
    addr + Arena.size ≤ (claim size nb addr).base ∧ (claim size nb addr).base % 8 = 0 ∧
      (claim size nb addr).avail = (claim size nb addr).base ∧
      (claim size nb addr).base + nb ≤ addr + gross size nb := by
  unfold claim gross extra arenaAlign
  dsimp only [Arena.size]
  split_ifs <;> omega

namespace ArenaPool

/-! ### Allocations -/

/-- A pool extends itself. -/
theorem Extends.refl (pool : ArenaPool) : pool.Extends pool :=
  ⟨rfl, rfl, [], pool.current.avail, Nat.le_refl _, rfl⟩

/-- What is allocated after an allocation extends the pool before both. -/
theorem Extends.trans (h₁ : pool.Extends pool') (h₂ : pool'.Extends pool'') :
    pool.Extends pool'' := by
  obtain ⟨hnext₁, hsize₁, newer₁, avail₁, hle₁, hlist₁⟩ := h₁
  obtain ⟨hnext₂, hsize₂, newer₂, avail₂, hle₂, hlist₂⟩ := h₂
  refine ⟨hnext₂.trans hnext₁, hsize₂.trans hsize₁, ?_⟩
  rcases newer₁ with _ | ⟨a, newer₁⟩
  · -- the same arena is current, fuller and fuller
    obtain ⟨hcurrent, hbelow⟩ := List.cons.inj hlist₁
    rw [hcurrent, hbelow] at hlist₂
    rw [hcurrent] at hle₂
    exact ⟨newer₂, avail₂, Nat.le_trans hle₁ hle₂, hlist₂⟩
  · obtain ⟨-, hbelow⟩ := List.cons.inj hlist₁
    refine ⟨newer₂ ++ { pool'.current with avail := avail₂ } :: newer₁, avail₁, hle₁, ?_⟩
    rw [hlist₂, hbelow, List.append_assoc]
    rfl

/-- An arena has room left. -/
theorem extends_take (pool : ArenaPool) (nb : ℕ) :
    pool.Extends { pool with current := pool.current.take nb } :=
  ⟨rfl, rfl, [], pool.current.avail + nb, Nat.le_add_right .., rfl⟩

/-- The current arena of a pool in order with more taken from it. -/
theorem WF.take (h : pool.WF) (hnb : nb % 8 = 0)
    (hfits : pool.current.avail + nb ≤ pool.current.limit) :
    ({ pool with current := pool.current.take nb } : ArenaPool).WF := by
  have hcurrent := h.arenas pool.current (List.mem_cons_self ..)
  refine ⟨h.next, ?_, ?_⟩
  · intro a ha
    rcases List.mem_cons.1 ha with rfl | ha
    · have hbase := hcurrent.base
      have haligned := hcurrent.aligned
      refine ⟨hcurrent.header, ?_, hfits, hcurrent.limit, ?_⟩
      · show pool.current.base ≤ pool.current.avail + nb
        omega
      · show (pool.current.avail + nb) % 8 = 0
        omega
    · exact h.arenas a (List.mem_cons_of_mem _ ha)
  · obtain ⟨hcurrent', hbelow⟩ := List.pairwise_cons.1 h.apart
    exact List.pairwise_cons.2 ⟨hcurrent', hbelow⟩

/-- The pool with a new arena. -/
theorem WF.claim (h : pool.WF) (hnb : nb % 8 = 0)
    (hfresh : pool.Fresh addr (Arena.gross pool.arenasize nb)) :
    ({ pool with
      below := pool.current :: pool.below
      current := (Arena.claim pool.arenasize nb addr).take nb } : ArenaPool).WF := by
  obtain ⟨haddr, hlimit, hapart⟩ := hfresh
  obtain ⟨hheader, haligned, havail, hroom⟩ := Arena.claim_fits haddr pool.arenasize nb
  refine ⟨h.next, ?_, ?_⟩
  · intro a ha
    rcases List.mem_cons.1 ha with rfl | ha
    · refine ⟨hheader, ?_, ?_, hlimit, ?_⟩
      · exact havail ▸ Nat.le_add_right ..
      · show (Arena.claim pool.arenasize nb addr).avail + nb ≤ addr + Arena.gross pool.arenasize nb
        rw [havail]
        exact hroom
      · show ((Arena.claim pool.arenasize nb addr).avail + nb) % 8 = 0
        omega
    · exact h.arenas a ha
  · refine List.pairwise_cons.2 ⟨fun a ha => ?_, h.apart⟩
    refine (hapart a ?_).symm
    rw [ArenaPool.arenas, h.next]
    simpa [or_comm] using ha

/-- **What an allocation does**: it takes from the current arena, or from a new one, or
fails and changes nothing. -/
theorem allocate_cases (h : pool.WF) (hnb : nb % 8 = 0) (answer : Option ℕ) :
    (pool.allocate nb answer =
        ({ pool with current := pool.current.take nb }, some pool.current.avail) ∧
      pool.current.avail + nb ≤ pool.current.limit) ∨
    pool.allocate nb answer = (pool, none) ∨
    ∃ addr, pool.Fresh addr (Arena.gross pool.arenasize nb) ∧
      pool.allocate nb answer = ({ pool with
        below := pool.current :: pool.below
        current := (Arena.claim pool.arenasize nb addr).take nb },
        some (Arena.claim pool.arenasize nb addr).base) := by
  unfold allocate
  rw [arenaAlign_of_aligned hnb]
  dsimp only
  by_cases hfits : pool.current.fits nb = true
  · rw [if_pos hfits]
    exact Or.inl ⟨rfl, Arena.fits_iff.1 hfits⟩
  · right
    obtain ⟨below, current, next, arenasize⟩ := pool
    obtain rfl : next = [] := h.next
    rw [if_neg hfits]
    unfold allocateFrom
    rw [if_neg hfits]
    unfold malloc
    rcases answer with _ | addr
    · exact Or.inl rfl
    · rw [Option.filter_some]
      split_ifs with hfresh
      · rw [decide_eq_true_iff] at hfresh
        right
        refine ⟨addr, hfresh, ?_⟩
        dsimp only
        rw [(Arena.claim_fits hfresh.1 arenasize nb).2.2.1]
      · exact Or.inl rfl

/-- An allocation that fails changes nothing. -/
theorem allocate_of_none (h : pool.WF) (hnb : nb % 8 = 0)
    (hnone : (pool.allocate nb answer).2 = none) : (pool.allocate nb answer).1 = pool := by
  rcases allocate_cases h hnb answer with ⟨heq, -⟩ | heq | ⟨addr, -, heq⟩
  · rw [heq] at hnone
    cases hnone
  · rw [heq]
  · rw [heq] at hnone
    cases hnone

/-- An allocation keeps the pool in order and only adds to it. -/
theorem allocate_extends (h : pool.WF) (hnb : nb % 8 = 0) (answer : Option ℕ) :
    (pool.allocate nb answer).1.WF ∧ pool.Extends (pool.allocate nb answer).1 := by
  rcases allocate_cases h hnb answer with ⟨heq, hfits⟩ | heq | ⟨addr, hfresh, heq⟩
  · rw [heq]
    exact ⟨h.take hnb hfits, extends_take pool nb⟩
  · rw [heq]
    exact ⟨h, .refl pool⟩
  · rw [heq]
    exact ⟨h.claim hnb hfresh, rfl, rfl, [_], pool.current.avail, Nat.le_refl _, rfl⟩

/-! ### Releases -/

/-- The search goes past arenas that the mark is not in. -/
theorem findMark_of_not_contains {seen skipped rest : List Arena}
    (h : ∀ a ∈ skipped, a.contains mark = false) :
    findMark mark seen (skipped ++ rest) = findMark mark (skipped.reverse ++ seen) rest := by
  induction skipped generalizing seen with
  | nil => rfl
  | cons a skipped ih =>
      rw [List.cons_append, findMark, h a (List.mem_cons_self ..), if_neg (by decide),
        ih fun b hb => h b (List.mem_cons_of_mem _ hb), List.reverse_cons, List.append_assoc]
      rfl

/-- **A release to the mark of a pool leaves that pool**, whatever was allocated since. -/
theorem release_of_extends (h : pool.WF) (h' : pool'.WF) (hext : pool.Extends pool') :
    pool'.release pool.mark = pool := by
  obtain ⟨below, current, next, arenasize⟩ := pool
  obtain ⟨below', current', next', arenasize'⟩ := pool'
  obtain ⟨hnext, hsize, newer, avail, hle, hlist⟩ := hext
  dsimp only at hnext hsize hle hlist
  obtain rfl : next = [] := h.next
  obtain rfl := hnext
  obtain rfl := hsize
  have hcurrent := h.arenas current (List.mem_cons_self ..)
  have hwf := h'.arenas
  have hapart := h'.apart
  dsimp only at hwf hapart
  rw [hlist] at hwf hapart
  have hfuller := hwf { current with avail := avail } (by simp)
  -- the mark is in the arena that was the current one, and in no other
  have hin : Arena.contains { current with avail := avail } current.avail = true := by
    rw [Arena.contains_iff hfuller (by have := hcurrent.avail; have := hcurrent.limit; omega)]
    exact ⟨hcurrent.base, hle⟩
  have hretract : Arena.retract { current with avail := avail } current.avail = current := by
    unfold Arena.retract
    rw [arenaAlign_of_aligned hcurrent.aligned]
  have hbetween : current.base ≤ current.avail ∧ current.avail ≤ avail := ⟨hcurrent.base, hle⟩
  obtain ⟨-, htail, hnewer⟩ := List.pairwise_append.1 hapart
  have hbelow : ∀ a ∈ below, a.contains current.avail = false := fun a ha =>
    ((List.pairwise_cons.1 htail).1 a ha).symm.not_contains (hwf a (by simp [ha])) hfuller hbetween
  have hmark : ArenaPool.mark ⟨below, current, [], arenasize'⟩ = current.avail := rfl
  rw [hmark]
  rcases newer with _ | ⟨x, newer⟩
  · obtain ⟨rfl, rfl⟩ := List.cons.inj hlist
    unfold release
    split_ifs with hfast
    · dsimp only
      rw [hretract]
    · -- the first arena of the pool
      unfold releaseSlow arenas
      rw [findMark_of_not_contains (by simpa using hbelow), findMark, hin, if_pos rfl]
      dsimp only
      rw [hretract]
  · obtain ⟨rfl, rfl⟩ := List.cons.inj hlist
    have hx : current'.contains current.avail = false :=
      (hnewer current' (List.mem_cons_self ..) _ (List.mem_cons_self ..)).not_contains
        (hwf current' (by simp)) hfuller hbetween
    unfold release
    rw [if_neg (by simp [hx])]
    unfold releaseSlow arenas
    dsimp only
    have hsplit : (newer.append ({ current with avail := avail } :: below)).reverse ++ [current'] =
        below.reverse ++ { current with avail := avail } :: (newer.reverse ++ [current']) := by
      simp
    rw [hsplit, findMark_of_not_contains (by simpa using hbelow), findMark, hin, if_pos rfl]
    cases hrest : newer.reverse ++ [current'] with
    | nil => simp at hrest
    | cons b rest =>
        dsimp only
        rw [hretract, List.append_nil, List.reverse_reverse]

end ArenaPool
end

end ProntoScript
