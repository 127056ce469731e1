/-
# Lookups, additions and removals

What `JS_DHashTableOperate` does to a table in order.  A lookup returns the key's entry, or
a free one.  An addition returns the key's entry or a new one, whose members are clear
unless `initEntry` set them, and which is the key's as soon as the caller has written the
key to it (`Sound.add`).  A removal leaves all other entries where they can be found
(`Sound.remove`).  Each of them returns.

An addition that fails has changed nothing that the table stores.  But when `initEntry`
fails for an entry that was to be recycled, the count of the removed entries is one too
small from then on (`Sound.addEntry`).
-/

import ProntoScript.Hashing.Change

namespace ProntoScript

open DHash Probing

variable {κ β : Type*}

namespace DHashTable

variable {ops : DHashOps κ β} {t t' : DHashTable β} {key : κ} {i j n : ℕ}
  {e : DHashEntry β} {b b' : β} {c : Bool}

/-! ### Lookups -/

/-- **A lookup** finds the key's entry if there is one, and the table is as it was. -/
theorem Sound.lookup (hl : ops.Lawful) (h : t.Sound ops) (key : κ) :
    ∃ i, lookup ops t key = some (i, t) ∧
      ((∃ b c, t.cells i = .taken b c ∧ ops.getKey b = key) ∨
        t.cells i = .free ∧ Absent ops.getKey t.cells key) := by
  obtain ⟨i, t', heq, hf, hfound⟩ := h.search hl key .lookup
  have ht : t' = t := hf.eq (by decide)
  subst ht
  refine ⟨i, heq, ?_⟩
  cases hfound with
  | hit b c hi hkey => exact .inl ⟨b, c, hi, hkey⟩
  | miss n hi hempty _ habsent =>
      obtain ⟨N, hN⟩ := habsent
      exact .inr ⟨hempty.resolve_right fun ⟨ho, _⟩ => (by cases ho), h.toTidy.absent hN⟩

/-! ### Additions -/

/-- What the new entry's members are, when `initEntry` does not fail. -/
def InitEntry.given (cleared : β) : InitEntry β → Option β
  | .absent => some cleared
  | .fails => none
  | .sets b => some b

/-- The table when a new entry is claimed and has got its members. -/
def claimed (ops : DHashOps κ β) (t : DHashTable β) (key : κ) (i : ℕ) (b : β) : DHashTable β :=
  let isRemoved := (t.entryStore i).isRemoved
  (t.setEntry i
    ⟨if isRemoved then keyHashOf ops key ||| collisionFlag else keyHashOf ops key, b⟩).recount
    (increment t.entryCount)
    (if isRemoved then decrement t.removedCount else t.removedCount)

/-- The hash of a key, with or without the flag of the removed entry it goes to, makes the
entry a live one with that hash. -/
theorem isLive_keyHashOf (ops : DHashOps κ β) (key : κ) (removed : Bool) (b : β) :
    (⟨if removed then keyHashOf ops key ||| collisionFlag else keyHashOf ops key, b⟩ :
      DHashEntry β).isLive = true ∧
    (if removed then keyHashOf ops key ||| collisionFlag else keyHashOf ops key) &&&
      ~~~collisionFlag = keyHashOf ops key := by
  have hu : (if removed then keyHashOf ops key ||| collisionFlag else keyHashOf ops key) &&&
      ~~~collisionFlag = keyHashOf ops key := by
    split
    · rw [unflagged_flagged, keyHashOf_unflagged]
    · exact keyHashOf_unflagged ops key
  refine ⟨DHashEntry.isLive_iff_unflagged.2 ?_, hu⟩
  rw [hu]
  exact keyHashOf_ne_zero ops key

/-- An entry whose cell is free or removed is not live. -/
theorem not_isLive_of_empty (h : t.cells i = .free ∨ t.cells i = .removed) :
    (t.entryStore i).isLive = false := by
  refine Bool.eq_false_iff.2 fun hlive => ?_
  rw [cells, DHashEntry.cell_of_live hlive] at h
  rcases h with e | e <;> cases e

/-- **A claimed entry** with its members is an entry of the table. -/
theorem Sound.claim (h : t.Sound ops) (hroom : t.entryCount + t.removedCount + 1 < t.size)
    (hf : Flagged .add t t') (hi : i = path ops t.hashShift key n)
    (hempty : t.cells i = .free ∨ t.cells i = .removed)
    (hpass : ∀ m < n, (t'.cells (path ops t.hashShift key m)).Passable)
    (habsent : Absent ops.getKey t.cells key) (hkey : ops.getKey b = key) :
    (claimed ops t' key i b).Sound ops ∧
      (∀ b', (claimed ops t' key i b).Stores b' ↔ b' = b ∨ t.Stores b') ∧
      Kept ops NoKey t (claimed ops t' key i b) := by
  generalize hr : (t'.entryStore i).isRemoved = r
  obtain ⟨hlive, hhash⟩ := isLive_keyHashOf ops key r b
  generalize he : (⟨if r then keyHashOf ops key ||| collisionFlag else keyHashOf ops key, b⟩ :
    DHashEntry β) = e at hlive
  have hcell : e.cell = .taken b (e.keyHash &&& collisionFlag != 0#32) :=
    DHashEntry.cell_eq_taken.2 ⟨hlive, by rw [← he], rfl⟩
  have hcrossed : t.cells i = .removed → (e.keyHash &&& collisionFlag != 0#32) = true := by
    intro hrem
    rw [hf.isRemoved, DHashEntry.cell_eq_removed.1 hrem] at hr
    have hone : (keyHashOf ops key ||| collisionFlag) &&& collisionFlag ≠ 0#32 := by
      rw [ne_eq, ← BitVec.toNat_inj, toNat_and_flag, toNat_flagged, BitVec.toNat_ofNat]
      omega
    rw [← he, ← hr, if_pos rfl]
    exact bne_iff_ne.2 hone
  obtain ⟨htidy, hstores⟩ := h.toTidy.place hf hi hempty hpass habsent hcell hkey
    (by rw [← he]; exact hhash) hcrossed
  have hlt : i < t'.size := by
    rw [hf.size_eq, hi]
    exact path_lt h.shift key n
  have hcount := liveCount_setEntry (e := e) t' hlt
  have hcount' := sentinels_setEntry (e := e) t' hlt
  rw [hf.isLive, not_isLive_of_empty hempty, hlive, hf.liveCount, ← h.live, Bool.toNat_false,
    Bool.toNat_true, Nat.add_zero] at hcount
  rw [hr, isRemoved_of_live hlive, hf.sentinels, ← h.removed, Bool.toNat_false,
    Nat.add_zero] at hcount'
  have hle := size_le h.shift
  have hentry : t'.entryCount = t.entryCount := by rw [hf.rest]
  have hremoved : t'.removedCount = t.removedCount := by rw [hf.rest]
  unfold claimed
  simp only [hr, he, hentry, hremoved]
  have hkept : Kept ops NoKey t (t'.setEntry i e) := by
    refine hf.kept.trans (kept_setEntry fun b₁ c₁ h₁ _ => ?_) (fun _ => id) fun _ => id
    have hdead := not_isLive_of_empty hempty
    rw [← hf.isLive, isLive_of_taken h₁] at hdead
    exact absurd hdead.symm Bool.false_ne_true
  refine ⟨htidy.recount ?_ ?_ ?_ ?_, fun b' => (stores_recount _ _ _ b').trans (hstores b'),
    hkept.recount _ _⟩
  · simp only [increment, uint32]
    omega
  · simp only [decrement, uint32]
    cases r with
    | true =>
        rw [if_pos rfl]
        rw [Bool.toNat_true] at hcount'
        omega
    | false =>
        rw [if_neg Bool.false_ne_true]
        exact hcount'.symm
  · rw [hcount, show (t'.setEntry i e).size = t.size from hf.size_eq]
    omega
  · have := h.alpha
    rw [hf.rest]
    exact this

/-- The addition fails when it was to recycle a removed entry. -/
def spoils (ops : DHashOps κ β) (t : DHashTable β) (key : κ) : InitEntry β → Bool
  | .fails =>
      match searchTable ops t key (keyHashOf ops key) .add with
      | none => false
      | some (i, t) => (t.entryStore i).isRemoved
  | _ => false

/-- What the last part of an addition to the table `t` comes to. -/
inductive Added (ops : DHashOps κ β) (t : DHashTable β) (key : κ) (init : InitEntry β) :
    Bool → Option ℕ → DHashTable β → Prop
  | present (i : ℕ) (t' : DHashTable β) (b : β) (c : Bool) (hs : t'.Sound ops)
      (hstores : ∀ b', t'.Stores b' ↔ t.Stores b') (hkept : Kept ops NoKey t t')
      (hi : t'.cells i = .taken b c) (hkey : ops.getKey b = key) :
      Added ops t key init false (some i) t'
  | new (i : ℕ) (t' : DHashTable β) (b : β) (habsent : ∀ b, t.Stores b → ops.getKey b ≠ key)
      (hgiven : init.given ops.cleared = some b) (hi : (t'.entryStore i).body = b)
      (hfill : ∀ b, ops.getKey b = key → (t'.setBody i b).Sound ops ∧
        (∀ b', (t'.setBody i b).Stores b' ↔ b' = b ∨ t.Stores b') ∧
        Kept ops NoKey t (t'.setBody i b)) :
      Added ops t key init false (some i) t'
  | failed (t' : DHashTable β) (hinit : init = .fails) (hs : t'.Sound ops)
      (hstores : ∀ b', t'.Stores b' ↔ t.Stores b') (hkept : Kept ops NoKey t t') :
      Added ops t key init false none t'
  | spoiled (t' : DHashTable β) (hcount : t'.removedCount ≠ t'.sentinels) :
      Added ops t key init true none t'

/-- Writing the members that an entry has changes nothing. -/
theorem setBody_self (t : DHashTable β) (hb : (t.entryStore i).body = b) :
    t.setBody i b = t := by
  subst hb
  simp only [setBody, setEntry, Function.update_eq_self]

/-- An entry that is not live is clear already, so that clearing it once more after a
failing `initEntry` changes nothing. -/
theorem setBody_of_clear (h : t.Tidy ops) (hi : (t.entryStore i).isLive = false) :
    t.setBody i ops.cleared = t :=
  setBody_self t (h.clear i hi)

/-- An empty entry is cleared again, and only the count is another. -/
theorem spoiled_count (h : t.Tidy ops) (hi : (t.entryStore i).isLive = false) {m : ℕ}
    (hne : m ≠ t.sentinels) :
    (({ t with removedCount := m } : DHashTable β).setBody i ops.cleared).removedCount ≠
      (({ t with removedCount := m } : DHashTable β).setBody i ops.cleared).sentinels := by
  have hself : ({ t with removedCount := m } : DHashTable β).setBody i ops.cleared =
      { t with removedCount := m } := setBody_self _ (h.clear i hi)
  rw [hself]
  exact hne

/-- Where there is a removed entry, one less is not their number. -/
theorem Sound.decrement_ne (h : t.Sound ops) (hlt : i < t.size)
    (hr : (t.entryStore i).isRemoved = true) : decrement t.removedCount ≠ t.sentinels := by
  have hpos : 0 < t.sentinels := countEntries_pos hlt hr
  have hcount := h.removed
  have hroom := h.room
  have hle := size_le h.shift
  simp only [decrement, uint32]
  omega

/-- **The last part of an addition** returns the key's entry, or a new one. -/
theorem Sound.addEntry (hl : ops.Lawful) (h : t.Sound ops)
    (hroom : t.entryCount + t.removedCount + 1 < t.size) (key : κ) (init : InitEntry β) :
    ∃ r t', addEntry ops t key init = some (r, t') ∧
      Added ops t key init (spoils ops t key init) r t' := by
  obtain ⟨i, t₁, heq, hf, hfound⟩ := h.search hl key .add
  have hs₁ := hf.sound h
  have hspoils : spoils ops t key .fails = (t₁.entryStore i).isRemoved := by
    simp only [spoils, heq]
  simp only [DHashTable.addEntry, heq]
  cases hfound with
  | hit b c hi hkey =>
      obtain ⟨c', hc'⟩ := (hf.crosses i).taken_iff.1 ⟨c, hi⟩
      have hlive := isLive_of_taken hc'
      have hnot : spoils ops t key init = false := by
        cases init with
        | absent => rfl
        | sets b => rfl
        | fails => rw [hspoils, isRemoved_of_live hlive]
      rw [if_pos hlive, hnot]
      exact ⟨_, _, rfl, .present i t₁ b c' hs₁ hf.stores_iff hf.kept hc' hkey⟩
  | miss n hi hempty hpass habs =>
      obtain ⟨N, hN⟩ := habs
      have habsent := h.toTidy.absent hN
      have hnone : ∀ b, t.Stores b → ops.getKey b ≠ key := fun b ⟨j, c, hj⟩ => habsent j b c hj
      have hempty' := hempty.imp id And.right
      have hdead : (t₁.entryStore i).isLive = false := by
        rw [hf.isLive]
        exact not_isLive_of_empty hempty'
      rw [if_neg (by rw [hdead]; exact Bool.false_ne_true)]
      have hclear := setBody_of_clear hs₁.toTidy hdead
      have hclaim := fun b hb => h.claim (b := b) hroom hf hi hempty' (hpass rfl) habsent hb
      cases init with
      | absent =>
          refine ⟨_, _, rfl, .new i _ ops.cleared hnone rfl ?_ fun b hb => ?_⟩
          · cases hr : (t₁.entryStore i).isRemoved <;>
              simpa [setEntry, hr] using hs₁.clear i hdead
          · have hset := hclaim b hb
            cases hr : (t₁.entryStore i).isRemoved <;>
              simpa [claimed, hr, DHashTable.setBody, setEntry, DHashTable.recount] using hset
      | sets b₀ =>
          refine ⟨_, _, rfl, .new i _ b₀ hnone rfl ?_ fun b hb => ?_⟩
          · cases hr : (t₁.entryStore i).isRemoved <;> simp [DHashTable.setBody, setEntry]
          · have hset := hclaim b hb
            cases hr : (t₁.entryStore i).isRemoved <;>
              simpa [claimed, hr, DHashTable.setBody, setEntry, DHashTable.recount] using hset
      | fails =>
          rw [hspoils]
          cases hr : (t₁.entryStore i).isRemoved with
          | false =>
              rw [if_neg Bool.false_ne_true, hclear]
              exact ⟨_, _, rfl, .failed t₁ rfl hs₁ hf.stores_iff hf.kept⟩
          | true =>
              rw [if_pos rfl]
              have hlt : i < t₁.size := by
                rw [hf.size_eq, hi]
                exact path_lt h.shift key n
              -- the entry is still a removed one, but it is not counted any more
              exact ⟨_, _, rfl, .spoiled _ (spoiled_count hs₁.toTidy hdead
                (hs₁.decrement_ne hlt hr))⟩

/-- The counts of a table fit their words. -/
theorem uint32_of_lt (hn : n < 2 ^ 23) : uint32 n = n :=
  Nat.mod_eq_of_lt (hn.trans (by decide))

/-- Below the maximal load there are two free entries. -/
theorem room_of_lt_maxLoad (halpha : t.maxAlphaFrac < 256) (hsize : 16 ≤ t.size)
    (h : n < t.maxLoad t.size) : n + 1 < t.size := by
  unfold maxLoad at h
  rw [Nat.shiftRight_eq_div_pow] at h
  have hmul : t.maxAlphaFrac * t.size ≤ 255 * t.size :=
    Nat.mul_le_mul_right _ (Nat.le_of_lt_succ halpha)
  omega

/-- A table as full as `MIN_LOAD` says is less than half full, so that its entries fit one
half its size. -/
theorem minLoad_lt (halpha : t.minAlphaFrac < 128) (hsize : 16 ≤ t.size) :
    2 * t.minLoad t.size < t.size := by
  unfold minLoad
  rw [Nat.shiftRight_eq_div_pow]
  have hmul : t.minAlphaFrac * t.size ≤ 127 * t.size :=
    Nat.mul_le_mul_right _ (Nat.le_of_lt_succ halpha)
  omega

/-- What the growth before an addition comes to. -/
structure Grown (ops : DHashOps κ β) (t t' : DHashTable β) (alloc goesOn : Bool) : Prop where
  sound : t'.Sound ops
  stores : ∀ b, t'.Stores b ↔ t.Stores b
  same : t' = t ∨ t'.generation = increment t.generation
  room : goesOn = true → t'.entryCount + t'.removedCount + 1 < t'.size
  full : goesOn = false → t' = t ∧ (alloc = false ∨ 3 * 2 ^ 21 ≤ t.entryCount)

/-- A change before an addition, to a size that leaves room. -/
theorem Changed.grown {newLog2 : ℕ} {alloc changed : Bool} (h : t.Sound ops)
    (hch : Changed ops t t' newLog2 alloc changed) (hroom : t.entryCount + 1 < 2 ^ newLog2)
    (hlimit : sizeLimit ≤ 2 ^ newLog2 → t.entryCount + t.removedCount + 1 = t.size →
      3 * 2 ^ 21 ≤ t.entryCount) :
    Grown ops t t' alloc
      (!(!changed && uint32 (t'.entryCount + t'.removedCount) == t.size - 1)) := by
  have hle := size_le h.shift
  have hlt := h.room
  have hsum : uint32 (t.entryCount + t.removedCount) = t.entryCount + t.removedCount :=
    uint32_of_lt (by omega)
  cases changed with
  | true =>
      obtain ⟨hr, hs, hgen⟩ := hch.fresh rfl
      refine ⟨hch.sound, hch.stores, .inr hgen, fun _ => ?_, fun e => by simp at e⟩
      rw [hr, hs, hch.entryCount]
      exact hroom
  | false =>
      obtain ⟨rfl, hwhy⟩ := hch.same rfl
      rw [hsum]
      refine ⟨h, fun _ => Iff.rfl, .inl rfl, fun hgo => ?_, fun hgo => ⟨rfl, ?_⟩⟩
      · simp only [Bool.not_false, Bool.true_and, Bool.not_eq_true', beq_eq_false_iff_ne] at hgo
        omega
      · simp only [Bool.not_false, Bool.true_and, Bool.not_eq_false', beq_iff_eq] at hgo
        exact hwhy.imp_right fun hlim => hlimit hlim (by omega)

/-- **Before an addition** the table grows or is compressed, or the addition is given up,
so that one entry stays free. -/
theorem Sound.grow (hl : ops.Lawful) (h : t.Sound ops) (alloc : Bool) :
    ∃ goesOn t', grow ops t alloc = some (goesOn, t') ∧ Grown ops t t' alloc goesOn := by
  have hle := size_le h.shift
  have hroom := h.room
  have hsum : uint32 (t.entryCount + t.removedCount) = t.entryCount + t.removedCount :=
    uint32_of_lt (by omega)
  have hlog : 4 ≤ bits - t.hashShift := by
    have := h.shift
    unfold bits
    omega
  have hsize : t.size = 2 ^ (bits - t.hashShift) := rfl
  have hquarter : t.size >>> 2 = t.size / 4 := Nat.shiftRight_eq_div_pow t.size 2
  simp only [DHashTable.grow]
  rw [hsum]
  by_cases hload : t.entryCount + t.removedCount ≥ t.maxLoad t.size
  · rw [if_pos hload]
    by_cases hcompress : t.removedCount ≥ t.size >>> 2
    · -- compressing
      rw [if_pos hcompress]
      obtain ⟨changed, t', heq, hch⟩ := h.changeTable hl 0 (bits - t.hashShift) (by omega)
        hlog (by rw [← hsize]; omega) alloc
      rw [heq]
      refine ⟨_, t', rfl, hch.grown h (by rw [← hsize]; omega) fun hlim => ?_⟩
      rw [← hsize] at hlim
      unfold sizeLimit at hlim
      omega
    · -- growing
      rw [if_neg hcompress]
      obtain ⟨changed, t', heq, hch⟩ := h.changeTable hl 1 (bits - t.hashShift + 1) (by omega)
        (by omega) (by rw [Nat.pow_succ, ← hsize]; omega) alloc
      rw [heq]
      refine ⟨_, t', rfl, hch.grown h (by rw [Nat.pow_succ, ← hsize]; omega) fun hlim => ?_⟩
      rw [Nat.pow_succ, ← hsize] at hlim
      unfold sizeLimit at hlim
      omega
  · rw [if_neg hload]
    exact ⟨true, t, rfl, h, fun _ => Iff.rfl, .inl rfl, fun _ =>
      room_of_lt_maxLoad h.alpha.1 hle.1 (Nat.lt_of_not_le hload),
      fun e => absurd e.symm Bool.false_ne_true⟩

/-- An addition that `initEntry` fails, when it was to recycle a removed entry of the table
as it has grown. -/
def addSpoils (ops : DHashOps κ β) (t : DHashTable β) (key : κ) (alloc : Bool)
    (init : InitEntry β) : Bool :=
  match DHashTable.grow ops t alloc with
  | some (true, t) => spoils ops t key init
  | _ => false

/-- **An addition** is given up, when there is no memory or the table is as large as it
may be, or it goes on in the table as it has grown. -/
theorem Sound.add (hl : ops.Lawful) (h : t.Sound ops) (key : κ) (alloc : Bool)
    (init : InitEntry β) :
    ∃ r t', add ops t key alloc init = some (r, t') ∧
      (r = none ∧ t' = t ∧ (alloc = false ∨ 3 * 2 ^ 21 ≤ t.entryCount) ∧
          addSpoils ops t key alloc init = false ∨
        ∃ t₁, Grown ops t t₁ alloc true ∧
          Added ops t₁ key init (addSpoils ops t key alloc init) r t') := by
  obtain ⟨goesOn, t₁, heq, hgrown⟩ := h.grow hl alloc
  cases goesOn with
  | false =>
      simp only [DHashTable.add, addSpoils, heq]
      obtain ⟨rfl, hwhy⟩ := hgrown.full rfl
      exact ⟨none, _, rfl, .inl ⟨rfl, rfl, hwhy, trivial⟩⟩
  | true =>
      simp only [DHashTable.add, addSpoils, heq]
      obtain ⟨r, t', heq', hadded⟩ := hgrown.sound.addEntry hl (hgrown.room rfl) key init
      exact ⟨r, t', heq', .inr ⟨t₁, hgrown, hadded⟩⟩

/-! ### Removals -/

/-- A table above the smallest size can be halved. -/
theorem log2_of_minSize_lt (h : minSize < t.size) : 4 < bits - t.hashShift := by
  by_contra hge
  have hpow : 2 ^ (bits - t.hashShift) ≤ 2 ^ 4 :=
    Nat.pow_le_pow_right (by decide) (Nat.le_of_not_lt hge)
  unfold minSize size at h
  omega

/-- The table is halved, when it has few enough entries, or left alone. -/
theorem Sound.halve (hl : ops.Lawful) (h : t.Sound ops) (hsize : minSize < t.size)
    (hload : t.entryCount ≤ t.minLoad t.size) (alloc : Bool) :
    ∃ changed t', DHashTable.changeTable ops t (-1) alloc = some (changed, t') ∧ t'.Sound ops ∧
      (∀ b, t'.Stores b ↔ t.Stores b) ∧
      (t' = t ∨ t'.generation = increment t.generation) := by
  have hlog := log2_of_minSize_lt hsize
  have hmin := minLoad_lt h.alpha.2 (size_le h.shift).1
  have htwo : t.size = 2 ^ (bits - t.hashShift) := rfl
  have hhalf : 2 ^ (bits - t.hashShift) = 2 ^ (bits - t.hashShift - 1) * 2 := by
    rw [← Nat.pow_succ]
    congr 1
    omega
  obtain ⟨changed, t', heq, hch⟩ := h.changeTable hl (-1) (bits - t.hashShift - 1)
    (by omega) (by omega) (by omega) alloc
  refine ⟨changed, t', heq, hch.sound, hch.stores, ?_⟩
  cases changed with
  | true => exact .inr (hch.fresh rfl).2.2
  | false => exact .inl (hch.same rfl).1

/-- **A removal** takes the key's entry out of the table, and no other. -/
theorem Sound.remove (hl : ops.Lawful) (h : t.Sound ops) (key : κ) (alloc : Bool) :
    ∃ t', remove ops t key alloc = some t' ∧ t'.Sound ops ∧
      (∀ b, t'.Stores b ↔ t.Stores b ∧ ops.getKey b ≠ key) ∧
      (Kept ops (· = key) t t' ∨ t'.generation = increment t.generation) := by
  obtain ⟨i, t₁, heq, hf, hfound⟩ := h.search hl key .remove
  have ht : t₁ = t := hf.eq (by decide)
  subst ht
  simp only [DHashTable.remove, heq]
  cases hfound with
  | miss n hi hempty _ habs =>
      obtain ⟨N, hN⟩ := habs
      have habsent := h.toTidy.absent hN
      have hfree := hempty.resolve_right fun ⟨ho, _⟩ => (by cases ho)
      rw [if_neg (by rw [not_isLive_of_empty (.inl hfree)]; exact Bool.false_ne_true)]
      exact ⟨_, rfl, h, fun b => ⟨fun hb => ⟨hb, fun hk => by
        obtain ⟨j, c, hj⟩ := hb
        exact habsent j b c hj hk⟩, And.left⟩, .inl (.refl _ _ _)⟩
  | hit b c hi hkey =>
      rw [if_pos (isLive_of_taken hi)]
      obtain ⟨hs, hstores, hkept⟩ := h.rawRemove hi
      rw [hkey] at hstores hkept
      by_cases hshrink : (DHashTable.rawRemove ops t₁ i).size > minSize ∧
          (DHashTable.rawRemove ops t₁ i).entryCount ≤
            (DHashTable.rawRemove ops t₁ i).minLoad (DHashTable.rawRemove ops t₁ i).size
      · rw [if_pos hshrink]
        obtain ⟨changed, t', heq', hs', hstores', hsame⟩ := hs.halve hl hshrink.1 hshrink.2 alloc
        rw [heq']
        refine ⟨t', rfl, hs', fun b => (hstores' b).trans (hstores b), ?_⟩
        rw [← hkept.generation]
        refine hsame.imp_left fun he => ?_
        rw [he]
        exact hkept
      · rw [if_neg hshrink]
        exact ⟨_, rfl, hs, hstores, .inl hkept⟩

end DHashTable

end ProntoScript
