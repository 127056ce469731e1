/-
# What a search finds

Seen as the cells of a table with open addressing, the entries of a table in order are
`Probed`, for the paths of `probeHash`.  `SearchTable` then returns, with the entry of the
key if there is one, and otherwise with an entry for it: a free one, or for an addition the
first removed one that it came by.  The entries that an addition passes get the collision
flag, and nothing else changes (`searchTable_spec`).
-/

import ProntoScript.Hashing.Probe

namespace ProntoScript

open DHash Probing

variable {κ β : Type*}

namespace DHashEntry

variable {e : DHashEntry β} {b : β} {c : Bool}

/-- An entry as a cell of the table. -/
def cell (e : DHashEntry β) : Cell β :=
  if e.isFree then .free
  else if e.isRemoved then .removed
  else .taken e.body (e.keyHash &&& collisionFlag != 0#32)

/-- `ENTRY_IS_LIVE`: neither free nor removed. -/
theorem isLive_iff : e.isLive = true ↔ e.isFree = false ∧ e.isRemoved = false := by
  simp only [isLive, isFree, isRemoved, decide_eq_true_eq, beq_eq_false_iff_ne, ne_eq,
    ← BitVec.toNat_inj, BitVec.le_def, BitVec.toNat_ofNat]
  omega

/-- The cell of an entry is free where the entry is. -/
theorem cell_eq_free : e.cell = .free ↔ e.isFree = true := by
  unfold cell
  split <;> simp_all
  split <;> simp

/-- The cell of an entry is removed where the entry is. -/
theorem cell_eq_removed : e.cell = .removed ↔ e.isRemoved = true := by
  unfold cell
  split
  · next h =>
      simp only [isFree, beq_iff_eq] at h
      simp [isRemoved, h]
  · split <;> simp_all

/-- The cell of a live entry is taken by its members, with its flag. -/
theorem cell_eq_taken : e.cell = .taken b c ↔
    e.isLive = true ∧ e.body = b ∧ (e.keyHash &&& collisionFlag != 0#32) = c := by
  unfold cell
  rw [isLive_iff]
  split
  · next h => simp [h]
  · next h =>
      split
      · next h' => simp [h']
      · next h' => simp [h, h']

/-- The same, from left to right. -/
theorem cell_of_live (h : e.isLive = true) :
    e.cell = .taken e.body (e.keyHash &&& collisionFlag != 0#32) :=
  cell_eq_taken.2 ⟨h, rfl, rfl⟩

/-- An entry is live if its hash without the flag is not 0: 0 and 1 stand for free and
removed. -/
theorem isLive_iff_unflagged : e.isLive = true ↔ e.keyHash &&& ~~~collisionFlag ≠ 0#32 := by
  rw [isLive, decide_eq_true_eq]
  exact two_le_iff

/-- Setting the flag leaves an entry live. -/
theorem isLive_collide (h : e.isLive = true) : e.collide.isLive = true := by
  rw [isLive_iff_unflagged] at h ⊢
  rw [collide, unflagged_flagged]
  exact h

/-- Setting the flag leaves the members alone. -/
theorem cell_collide (h : e.isLive = true) : e.collide.cell = .taken e.body true := by
  refine cell_eq_taken.2 ⟨isLive_collide h, rfl, ?_⟩
  have hone : (e.keyHash ||| collisionFlag) &&& collisionFlag ≠ 0#32 := by
    rw [ne_eq, ← BitVec.toNat_inj, toNat_and_flag, toNat_flagged, BitVec.toNat_ofNat]
    omega
  simpa [collide] using hone

/-- Setting the flag is what a search may do to a cell that it crosses. -/
theorem crosses_collide (h : e.isLive = true) : Crosses e.cell e.collide.cell := by
  rw [cell_of_live h, cell_collide h]
  exact .crossed _ _

end DHashEntry

/-- What a table's user promises of its callbacks: an entry matches its own key only. -/
def DHashOps.Lawful (ops : DHashOps κ β) : Prop :=
  ∀ b k, ops.matchEntry b k = true ↔ ops.getKey b = k

namespace DHashTable

variable {ops : DHashOps κ β} {t t' t'' : DHashTable β} {key : κ} {op : DHashOperator}
  {i j n : ℕ}

@[simp] theorem setEntry_entryStore (t : DHashTable β) (i : ℕ) (e : DHashEntry β) :
    (t.setEntry i e).entryStore = Function.update t.entryStore i e := rfl

@[simp] theorem setEntry_hashShift (t : DHashTable β) (i : ℕ) (e : DHashEntry β) :
    (t.setEntry i e).hashShift = t.hashShift := rfl

/-- The entries of the table as cells. -/
def cells (t : DHashTable β) (i : ℕ) : Cell β := (t.entryStore i).cell

/-- Where the search for a key looks at a step. -/
def path (ops : DHashOps κ β) (shift : ℕ) (key : κ) (n : ℕ) : ℕ :=
  (probeHash (keyHashOf ops key) shift n).toNat

/-- Live entries store the hash of their key. -/
def Hashed (ops : DHashOps κ β) (t : DHashTable β) : Prop :=
  ∀ i, (t.entryStore i).isLive = true →
    (t.entryStore i).keyHash &&& ~~~collisionFlag = keyHashOf ops (ops.getKey (t.entryStore i).body)

/-- The hash of a key has no flag. -/
theorem keyHashOf_unflagged (ops : DHashOps κ β) (key : κ) :
    keyHashOf ops key &&& ~~~collisionFlag = keyHashOf ops key := by
  unfold keyHashOf
  exact unflagged_unflagged _

/-- The hash of a key is not that of a free entry. -/
theorem keyHashOf_ne_zero (ops : DHashOps κ β) (key : κ) : keyHashOf ops key ≠ 0#32 := by
  unfold keyHashOf
  refine two_le_iff.1 ?_
  split
  · next h => bv_omega
  · next h => exact BitVec.not_lt.1 h

/-- A search ends at free entries, and at the one that matches. -/
theorem stops_iff (hl : ops.Lawful) (hh : t.Hashed ops) :
    (t.cells i).Stops ops.getKey key ↔ (t.entryStore i).isFree = true ∨
      ((t.entryStore i).matchKeyHash (keyHashOf ops key) &&
        ops.matchEntry (t.entryStore i).body key) = true := by
  unfold cells
  cases hfree : (t.entryStore i).isFree with
  | true =>
      rw [DHashEntry.cell_eq_free.2 hfree]
      exact ⟨fun _ => .inl rfl, fun _ => trivial⟩
  | false =>
      rw [Bool.and_eq_true, DHashEntry.matchKeyHash, beq_iff_eq, hl]
      cases hrem : (t.entryStore i).isRemoved with
      | true =>
          rw [DHashEntry.cell_eq_removed.2 hrem]
          refine ⟨False.elim, fun h => ?_⟩
          obtain ⟨he, _⟩ := h.resolve_left Bool.false_ne_true
          rw [DHashEntry.isRemoved, beq_iff_eq] at hrem
          rw [hrem] at he
          exact keyHashOf_ne_zero ops key he.symm
      | false =>
          have hlive := DHashEntry.isLive_iff.2 ⟨hfree, hrem⟩
          rw [DHashEntry.cell_of_live hlive]
          constructor
          · intro h
            have hk : ops.getKey (t.entryStore i).body = key := h
            exact .inr ⟨by rw [hh i hlive, hk], hk⟩
          · intro h
            exact (h.resolve_left Bool.false_ne_true).2

/-! ### Flags -/

/-- The second table is the first one, with the collision flag at some live entries if this
is an addition. -/
structure Flagged (op : DHashOperator) (t t' : DHashTable β) : Prop where
  rest : t' = { t with entryStore := t'.entryStore }
  entry : ∀ j, t'.entryStore j = t.entryStore j ∨ op = .add ∧ (t.entryStore j).isLive = true ∧
    t'.entryStore j = (t.entryStore j).collide

/-- A search may set no flags. -/
theorem Flagged.refl (op : DHashOperator) (t : DHashTable β) : Flagged op t t :=
  ⟨rfl, fun _ => .inl rfl⟩

/-- A flag is set once. -/
theorem collide_collide (e : DHashEntry β) : e.collide.collide = e.collide := by
  simp only [DHashEntry.collide, BitVec.or_assoc, BitVec.or_self]

/-- Two stretches of a search set the flags of both. -/
theorem Flagged.trans (h : Flagged op t t') (h' : Flagged op t' t'') : Flagged op t t'' where
  rest := by rw [h'.rest, h.rest]
  entry j := by
    rcases h.entry j with he | ⟨ho, hlive, he⟩
    · rw [← he]
      exact h'.entry j
    · refine .inr ⟨ho, hlive, ?_⟩
      rcases h'.entry j with he' | ⟨_, _, he'⟩
      · rw [he', he]
      · rw [he', he, collide_collide]

/-- One step of a search over a live entry, which sets its flag in a search for
`JS_DHASH_ADD`. -/
theorem Flagged.collide (t : DHashTable β) (hlive : (t.entryStore i).isLive = true) :
    Flagged op t (if op = .add then t.setEntry i (t.entryStore i).collide else t) := by
  split
  · next ho =>
      refine ⟨rfl, fun j => ?_⟩
      by_cases he : j = i
      · subst he
        exact .inr ⟨ho, hlive, Function.update_self _ _ _⟩
      · exact .inl (Function.update_of_ne he _ _)
  · exact .refl _ _

/-- A search for a lookup or a removal changes nothing. -/
theorem Flagged.eq (h : Flagged op t t') (ho : op ≠ .add) : t' = t := by
  have hs : t'.entryStore = t.entryStore := by
    funext j
    exact (h.entry j).resolve_right fun ha => ho ha.1
  rw [h.rest, hs]

/-- A search leaves the shift alone. -/
theorem Flagged.hashShift_eq (h : Flagged op t t') : t'.hashShift = t.hashShift := by rw [h.rest]

/-- A search leaves the size alone. -/
theorem Flagged.size_eq (h : Flagged op t t') : t'.size = t.size := by
  rw [DHashTable.size, h.hashShift_eq, DHashTable.size]

/-- What a search does to each of the cells. -/
theorem Flagged.crosses (h : Flagged op t t') (j : ℕ) : Crosses (t.cells j) (t'.cells j) := by
  unfold cells
  rcases h.entry j with he | ⟨_, hlive, he⟩ <;> rw [he]
  · exact .same _
  · exact DHashEntry.crosses_collide hlive

/-- A search leaves the members of each entry alone. -/
theorem Flagged.body (h : Flagged op t t') (j : ℕ) :
    (t'.entryStore j).body = (t.entryStore j).body := by
  rcases h.entry j with he | ⟨_, _, he⟩ <;> rw [he]
  rfl

/-- A search makes no entry live, and none cease to be. -/
theorem Flagged.isLive (h : Flagged op t t') (j : ℕ) :
    (t'.entryStore j).isLive = (t.entryStore j).isLive := by
  rcases h.entry j with he | ⟨_, hlive, he⟩ <;> rw [he]
  rw [hlive, DHashEntry.isLive_collide hlive]

/-- The hashes of a table are still those of its keys after a search. -/
theorem Flagged.hashed (h : Flagged op t t') (hh : t.Hashed ops) : t'.Hashed ops := by
  intro j hj
  rw [h.isLive] at hj
  rw [h.body, ← hh j hj]
  rcases h.entry j with he | ⟨_, _, he⟩ <;> rw [he]
  exact unflagged_flagged _

/-! ### The search -/

/-- What the search returned: the key's entry, or where the key would go. -/
inductive Found (ops : DHashOps κ β) (t t' : DHashTable β) (key : κ) (op : DHashOperator) (i : ℕ) :
    Prop
  | hit (b : β) (c : Bool) (hi : t.cells i = .taken b c) (hkey : ops.getKey b = key)
  | miss (n : ℕ) (hi : i = path ops t.hashShift key n)
      (hempty : t.cells i = .free ∨ op = .add ∧ t.cells i = .removed)
      (hpass : op = .add → ∀ m < n, (t'.cells (path ops t.hashShift key m)).Passable)
      (habsent : ∃ n, t.cells (path ops t.hashShift key n) = .free ∧
        ∀ m < n, ¬(t.cells (path ops t.hashShift key m)).Stops ops.getKey key)

/-- What the rest of a search finds, the whole search finds. -/
theorem Found.of_flagged (h : Flagged op t t') (hf : Found ops t' t'' key op i) :
    Found ops t t'' key op i := by
  have hshift := h.hashShift_eq
  cases hf with
  | hit b c hi hkey =>
      obtain ⟨c', hc'⟩ := (h.crosses i).taken_iff.2 ⟨c, hi⟩
      exact .hit b c' hc' hkey
  | miss n hi hempty hpass habsent =>
      rw [hshift] at hi hpass habsent
      obtain ⟨N, hN, hbefore⟩ := habsent
      refine .miss n hi (hempty.imp (h.crosses i).free_iff.1 (And.imp_right
        (h.crosses i).removed_iff.1)) hpass ⟨N, (h.crosses _).free_iff.1 hN, fun m hm hs => ?_⟩
      exact hbefore m hm (((h.crosses _).stops_iff _).2 hs)

/-- What an addition knows of the entries that it passed: `firstRemoved` is the first one
that it may recycle, and on all before it there is a flag. -/
def Remembered (ops : DHashOps κ β) (t : DHashTable β) (key : κ) (n : ℕ) : Option ℕ → Prop
  | none => ∀ m < n, (t.cells (path ops t.hashShift key m)).Passable
  | some removed => ∃ n' < n, removed = path ops t.hashShift key n' ∧
      t.cells removed = .removed ∧
      ∀ m < n', (t.cells (path ops t.hashShift key m)).Passable

/-- No entry ended the search in its first steps. -/
def Passed (ops : DHashOps κ β) (t : DHashTable β) (key : κ) (n : ℕ) : Prop :=
  ∀ m < n, ¬(t.cells (path ops t.hashShift key m)).Stops ops.getKey key

/-- A search goes past an entry at which it does not stop. -/
theorem Passed.succ (h : Passed ops t key n)
    (hn : ¬(t.cells (path ops t.hashShift key n)).Stops ops.getKey key) :
    Passed ops t key (n + 1) := by
  intro m hm
  rcases Nat.lt_succ_iff_lt_or_eq.1 hm with hlt | rfl
  · exact h m hlt
  · exact hn

/-- Flags set behind it do not take a search back. -/
theorem Passed.flagged (h : Passed ops t key n) (hf : Flagged op t t') : Passed ops t' key n := by
  have hshift := hf.hashShift_eq
  intro m hm hs
  rw [hshift] at hs
  exact h m hm (((hf.crosses _).stops_iff _).1 hs)

/-- A removed entry is remembered, if it is the first. -/
theorem Remembered.succ_removed {firstRemoved : Option ℕ}
    (h : Remembered ops t key n firstRemoved)
    (hrem : t.cells (path ops t.hashShift key n) = .removed) :
    Remembered ops t key (n + 1)
      (if firstRemoved = none then some (path ops t.hashShift key n) else firstRemoved) := by
  cases firstRemoved with
  | none => exact ⟨n, Nat.lt_succ_self n, rfl, hrem, h⟩
  | some removed =>
      obtain ⟨n', hn', rest⟩ := h
      exact ⟨n', Nat.lt_succ_of_lt hn', rest⟩

/-- A live entry is crossed, with its flag set, and what was remembered stays. -/
theorem Remembered.succ_flagged {firstRemoved : Option ℕ}
    (h : Remembered ops t key n firstRemoved) (hf : Flagged .add t t')
    (hpass : (t'.cells (path ops t.hashShift key n)).Passable) :
    Remembered ops t' key (n + 1) firstRemoved := by
  have hshift := hf.hashShift_eq
  cases firstRemoved with
  | none =>
      intro m hm
      rw [hshift]
      rcases Nat.lt_succ_iff_lt_or_eq.1 hm with hlt | rfl
      · exact (hf.crosses _).passable (h m hlt)
      · exact hpass
  | some removed =>
      obtain ⟨n', hn', hr, hrem, hp⟩ := h
      refine ⟨n', Nat.lt_succ_of_lt hn', by rw [hshift]; exact hr,
        (hf.crosses _).removed_iff.2 hrem, fun m hm => ?_⟩
      rw [hshift]
      exact (hf.crosses _).passable (hp m hm)

/-- A live entry with its flag set may be passed by later searches. -/
theorem passable_collide (hlive : (t.entryStore i).isLive = true) :
    ((t.setEntry i (t.entryStore i).collide).cells i).Passable := by
  rw [cells, setEntry_entryStore, Function.update_self, DHashEntry.cell_collide hlive]
  exact rfl

/-- A round of the search at an entry, the first one or one of the loop's, with what comes
after it. -/
def round (ops : DHashOps κ β) (key : κ) (op : DHashOperator)
    (next : Option ℕ → DHashTable β → Option (ℕ × DHashTable β)) (i : ℕ)
    (firstRemoved : Option ℕ) (t : DHashTable β) : Option (ℕ × DHashTable β) :=
  let entry := t.entryStore i
  if entry.isFree then
    match firstRemoved, op with
    | some removed, .add => some (removed, t)
    | _, _ => some (i, t)
  else if entry.matchKeyHash (keyHashOf ops key) && ops.matchEntry entry.body key then some (i, t)
  else if entry.isRemoved then next (if firstRemoved = none then some i else firstRemoved) t
  else next firstRemoved (if op = .add then t.setEntry i entry.collide else t)

/-- The loop after its step `n`. -/
def loopFrom (ops : DHashOps κ β) (key : κ) (op : DHashOperator) (shift fuel n : ℕ) :
    Option ℕ → DHashTable β → Option (ℕ × DHashTable β) :=
  searchLoop ops key (keyHashOf ops key) (DHash.hash2 (keyHashOf ops key) (bits - shift) shift)
    (bitMask (bits - shift)) op fuel (probeHash (keyHashOf ops key) shift n)

/-- The loop of `SearchTable` is a round and the rest of the loop. -/
theorem loopFrom_succ (shift fuel n : ℕ) (firstRemoved : Option ℕ) (t : DHashTable β) :
    loopFrom ops key op shift (fuel + 1) n firstRemoved t =
      round ops key op (loopFrom ops key op shift fuel (n + 1)) (path ops shift key (n + 1))
        firstRemoved t := rfl

/-- `SearchTable` is a round at the first index and its loop. Source: lines 353-426 of
`js/src/jsdhash.c`. -/
theorem searchTable_eq (t : DHashTable β) :
    searchTable ops t key (keyHashOf ops key) op =
      round ops key op (loopFrom ops key op t.hashShift t.size 0) (path ops t.hashShift key 0)
        none t := rfl

/-- The search ended as it should. -/
def Ended (ops : DHashOps κ β) (t : DHashTable β) (key : κ) (op : DHashOperator)
    (result : Option (ℕ × DHashTable β)) : Prop :=
  ∃ i t', result = some (i, t') ∧ Flagged op t t' ∧ Found ops t t' key op i

/-- **A round of the search**: it ends there, or goes on with one more entry passed. -/
theorem round_ended (hl : ops.Lawful)
    {next : Option ℕ → DHashTable β → Option (ℕ × DHashTable β)} {firstRemoved : Option ℕ}
    (hh : t.Hashed ops) (hpassed : Passed ops t key n)
    (hrem : op = .add → Remembered ops t key n firstRemoved)
    (hnext : ∀ firstRemoved t', Flagged op t t' → Passed ops t' key (n + 1) →
      (op = .add → Remembered ops t' key (n + 1) firstRemoved) →
      Ended ops t' key op (next firstRemoved t')) :
    Ended ops t key op
      (round ops key op next (path ops t.hashShift key n) firstRemoved t) := by
  have hiff : (t.cells (path ops t.hashShift key n)).Stops ops.getKey key ↔ _ :=
    stops_iff hl hh
  unfold round
  by_cases hfree : (t.entryStore (path ops t.hashShift key n)).isFree = true
  · -- miss: `firstRemoved`, or the free entry
    rw [if_pos hfree]
    have hcell := DHashEntry.cell_eq_free.2 hfree
    split
    · next removed =>
        obtain ⟨n', hn', hr, hremoved, hp⟩ := hrem rfl
        exact ⟨_, _, rfl, .refl _ _,
          .miss n' hr (.inr ⟨rfl, hremoved⟩) (fun _ => hp) ⟨n, hcell, hpassed⟩⟩
    · next hnot =>
        refine ⟨_, _, rfl, .refl _ _,
          .miss n rfl (.inl hcell) (fun ho => ?_) ⟨n, hcell, hpassed⟩⟩
        subst ho
        cases firstRemoved with
        | none => exact hrem rfl
        | some removed => exact absurd rfl (hnot removed rfl)
  rw [if_neg hfree]
  by_cases hmatch : ((t.entryStore (path ops t.hashShift key n)).matchKeyHash
      (keyHashOf ops key) &&
    ops.matchEntry (t.entryStore (path ops t.hashShift key n)).body key) = true
  · -- hit
    rw [if_pos hmatch]
    have hs := hiff.2 (.inr hmatch)
    refine ⟨_, _, rfl, .refl _ _, ?_⟩
    cases hc : t.cells (path ops t.hashShift key n) with
    | free => exact absurd (DHashEntry.cell_eq_free.1 hc) hfree
    | removed =>
        rw [hc] at hs
        exact hs.elim
    | taken b c =>
        rw [hc] at hs
        exact .hit b c hc hs
  rw [if_neg hmatch]
  have hpassed' := hpassed.succ fun hs => (hiff.1 hs).elim hfree hmatch
  by_cases hremoved : (t.entryStore (path ops t.hashShift key n)).isRemoved = true
  · rw [if_pos hremoved]
    exact hnext _ t (.refl _ _) hpassed'
      fun ho => (hrem ho).succ_removed (DHashEntry.cell_eq_removed.2 hremoved)
  · -- another key's entry, which an addition flags
    rw [if_neg hremoved]
    have hlive := DHashEntry.isLive_iff.2
      ⟨Bool.eq_false_iff.2 hfree, Bool.eq_false_iff.2 hremoved⟩
    have hf : Flagged op t _ := Flagged.collide t hlive
    obtain ⟨i, t', heq, hf', hfound⟩ := hnext firstRemoved _ hf (hpassed'.flagged hf)
      (fun ho => by
        subst ho
        exact (hrem rfl).succ_flagged hf (by rw [if_pos rfl]; exact passable_collide hlive))
    exact ⟨i, t', heq, hf.trans hf', hfound.of_flagged hf⟩

/-- **The loop returns**, when one of the entries that it comes to ends the search. -/
theorem loopFrom_ended (hl : ops.Lawful) {shift fuel : ℕ} {firstRemoved : Option ℕ}
    (hshift : t.hashShift = shift) (hh : t.Hashed ops) (hpassed : Passed ops t key (n + 1))
    (hrem : op = .add → Remembered ops t key (n + 1) firstRemoved)
    (hstop : ∃ N ≤ n + fuel, (t.cells (path ops shift key N)).Stops ops.getKey key) :
    Ended ops t key op (loopFrom ops key op shift fuel n firstRemoved t) := by
  induction fuel generalizing n t firstRemoved with
  | zero =>
      obtain ⟨N, hN, hs⟩ := hstop
      rw [← hshift] at hs
      exact absurd hs (hpassed N (Nat.lt_succ_of_le hN))
  | succ fuel ih =>
      rw [loopFrom_succ, ← hshift]
      refine round_ended hl hh hpassed hrem fun firstRemoved t' hf hpassed' hrem' => ?_
      rw [hshift]
      obtain ⟨N, hN, hs⟩ := hstop
      exact ih (hf.hashShift_eq.trans hshift) (hf.hashed hh) hpassed' hrem'
        ⟨N, by omega, ((hf.crosses _).stops_iff _).2 hs⟩

/-- **`SearchTable` returns** if there is a free entry, with the key's entry or with one
that the key may have. -/
theorem searchTable_spec (hl : ops.Lawful) (hh : t.Hashed ops) (hs : 0 < t.hashShift)
    (hs' : t.hashShift < 32) (hi : i < t.size) (hfree : t.cells i = .free) :
    ∃ j t', searchTable ops t key (keyHashOf ops key) op = some (j, t') ∧ Flagged op t t' ∧
      Found ops t t' key op j := by
  obtain ⟨N, hN, he⟩ := exists_probeHash (keyHashOf ops key) hs hs' hi
  rw [searchTable_eq]
  refine round_ended hl hh (fun m hm => absurd hm (Nat.not_lt_zero m))
    (fun _ m hm => absurd hm (Nat.not_lt_zero m)) fun firstRemoved t' hf hpassed hrem => ?_
  refine loopFrom_ended hl hf.hashShift_eq (hf.hashed hh) hpassed hrem
    ⟨N, by rw [Nat.zero_add]; exact Nat.le_of_lt hN, ?_⟩
  have hcell : t.cells (path ops t.hashShift key N) = .free := by
    rw [path, he]
    exact hfree
  rw [(hf.crosses _).free_iff.2 hcell]
  exact trivial

end DHashTable

end ProntoScript
