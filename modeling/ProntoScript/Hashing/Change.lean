/-
# Growing and shrinking a table

`ChangeTable` puts the live entries into a new store and leaves the removed ones behind.
It fails before it touches the table or not at all, and when it is done the table stores
what it did (`Sound.changeTable`).  `JS_DHashTableRawRemove` is here as well, and the
caller's writing to an entry.
-/

import ProntoScript.Hashing.Table

namespace ProntoScript

open DHash Probing

variable {κ β : Type*}

namespace DHashTable

variable {ops : DHashOps κ β} {t t' : DHashTable β} {key : κ} {i j n : ℕ}
  {e : DHashEntry β} {b b' : β} {c : Bool}

/-- Whether a table is tidy depends on its store and the shift of its hashes only. -/
theorem Tidy.of_store (h : t.Tidy ops) (hs : t'.hashShift = t.hashShift)
    (he : t'.entryStore = t.entryStore) : t'.Tidy ops := by
  have hc : t'.cells = t.cells := by
    funext i
    rw [cells, cells, he]
  constructor
  · rw [hs]
    exact h.shift
  · rw [hs, hc]
    exact h.probed
  · intro i
    rw [he]
    exact h.hashed i
  · intro i
    rw [he]
    exact h.clear i

/-- Writing an entry of the table changes the number of live ones by that entry. -/
theorem liveCount_setEntry (t : DHashTable β) (hi : i < t.size) :
    (t.setEntry i e).liveCount + (t.entryStore i).isLive.toNat =
      t.liveCount + e.isLive.toNat :=
  countEntries_update hi

/-- Writing an entry of the table changes the number of removed ones by that entry. -/
theorem sentinels_setEntry (t : DHashTable β) (hi : i < t.size) :
    (t.setEntry i e).sentinels + (t.entryStore i).isRemoved.toNat =
      t.sentinels + e.isRemoved.toNat :=
  countEntries_update hi

/-- The counts are written. -/
def recount (t : DHashTable β) (entryCount removedCount : ℕ) : DHashTable β :=
  { t with entryCount := entryCount, removedCount := removedCount }

/-- The counts say nothing about what is stored. -/
theorem stores_recount (t : DHashTable β) (m n : ℕ) (b : β) :
    (t.recount m n).Stores b ↔ t.Stores b := Iff.rfl

/-- With the right counts a table is sound. -/
theorem Tidy.recount (h : t.Tidy ops) {m n : ℕ} (hm : m = t.liveCount) (hn : n = t.sentinels)
    (hroom : t.liveCount + t.sentinels < t.size)
    (halpha : t.maxAlphaFrac < 256 ∧ t.minAlphaFrac < 128) : (t.recount m n).Sound ops := by
  subst hm hn
  exact ⟨h.of_store rfl rfl, rfl, rfl, hroom, halpha⟩

/-- A live entry is not a removed one. -/
theorem isRemoved_of_live (h : e.isLive = true) : e.isRemoved = false :=
  (DHashEntry.isLive_iff.1 h).2

/-- The store is the same one, and every entry is where it was, but for those of the keys
that are gone. -/
structure Kept (ops : DHashOps κ β) (gone : κ → Prop) (t t' : DHashTable β) : Prop where
  generation : t'.generation = t.generation
  entry : ∀ i b c, t.cells i = .taken b c → ¬gone (ops.getKey b) →
    ∃ b' c', t'.cells i = .taken b' c' ∧ ops.getKey b' = ops.getKey b

/-- No key. -/
def NoKey : κ → Prop := fun _ => False

/-- No entry moves where nothing happens. -/
theorem Kept.refl (ops : DHashOps κ β) (gone : κ → Prop) (t : DHashTable β) : Kept ops gone t t :=
  ⟨rfl, fun _ b c h _ => ⟨b, c, h, rfl⟩⟩

/-- What one change keeps and the next one keeps is kept by both, but for the keys that
are gone in the end. -/
theorem Kept.trans {gone gone' gone'' : κ → Prop} {t'' : DHashTable β} (h : Kept ops gone t t')
    (h' : Kept ops gone' t' t'') (hgone : ∀ k, gone k → gone'' k)
    (hgone' : ∀ k, gone' k → gone'' k) : Kept ops gone'' t t'' where
  generation := h'.generation.trans h.generation
  entry i b c hi hb := by
    obtain ⟨b₁, c₁, h₁, hk₁⟩ := h.entry i b c hi fun hg => hb (hgone _ hg)
    obtain ⟨b₂, c₂, h₂, hk₂⟩ := h'.entry i b₁ c₁ h₁ fun hg => hb (hgone' _ (hk₁ ▸ hg))
    exact ⟨b₂, c₂, h₂, hk₂.trans hk₁⟩

/-- A search moves no entry: it sets collision flags only. -/
theorem Flagged.kept {op : DHashOperator} (hf : Flagged op t t') : Kept ops NoKey t t' where
  generation := by rw [hf.rest]
  entry i b c hi _ := by
    obtain ⟨c', hc'⟩ := (hf.crosses i).taken_iff.1 ⟨c, hi⟩
    exact ⟨b, c', hc', rfl⟩

/-- Writing an entry keeps the others where they are, and that one too if it keeps its key
or the key is to go. -/
theorem kept_setEntry {gone : κ → Prop} (hi : ∀ b c, t.cells i = .taken b c →
    ¬gone (ops.getKey b) → ∃ b' c', e.cell = .taken b' c' ∧ ops.getKey b' = ops.getKey b) :
    Kept ops gone t (t.setEntry i e) where
  generation := rfl
  entry j b c hj hb := by
    rw [cells_setEntry]
    by_cases he : j = i
    · subst he
      rw [Function.update_self]
      exact hi b c hj hb
    · rw [Function.update_of_ne he]
      exact ⟨b, c, hj, rfl⟩

/-- The counts say nothing about where the entries are. -/
theorem Kept.recount {gone : κ → Prop} (h : Kept ops gone t t') (m n : ℕ) :
    Kept ops gone t (t'.recount m n) := ⟨h.generation, h.entry⟩

/-! ### Writing to an entry -/

/-- Members written to a live entry are those of its cell. -/
theorem cell_body (hlive : e.isLive = true) (b : β) :
    ({ e with body := b } : DHashEntry β).cell =
      .taken b (e.keyHash &&& collisionFlag != 0#32) :=
  DHashEntry.cell_eq_taken.2 ⟨hlive, rfl, rfl⟩

/-- **The caller may change an entry**, but for its key. -/
theorem Sound.setBody (h : t.Sound ops) (hi : t.cells i = .taken b c)
    (hk : ops.getKey b' = ops.getKey b) :
    (t.setBody i b').Sound ops ∧
      (∀ b'', (t.setBody i b').Stores b'' ↔
        b'' = b' ∨ t.Stores b'' ∧ ops.getKey b'' ≠ ops.getKey b) ∧
      Kept ops NoKey t (t.setBody i b') := by
  have hlt := h.toTidy.lt_size hi
  obtain ⟨hlive, hb, hc⟩ := DHashEntry.cell_eq_taken.1 hi
  have hlive' : ({ t.entryStore i with body := b' } : DHashEntry β).isLive = true := hlive
  have hcell : ({ t.entryStore i with body := b' } : DHashEntry β).cell = .taken b' c := by
    rw [← hc]
    exact cell_body hlive b'
  have hhash : ({ t.entryStore i with body := b' } : DHashEntry β).keyHash &&&
      ~~~collisionFlag = keyHashOf ops (ops.getKey b') := by
    rw [hk, ← hb]
    exact h.hashed i hlive
  refine ⟨⟨⟨h.shift, ?_, h.hashed.setEntry fun _ => hhash, h.clear_setEntry (.inl hlive')⟩,
    ?_, ?_, h.room, h.alpha⟩, fun b'' => ?_, kept_setEntry fun b₁ c₁ h₁ _ => ?_⟩
  · rw [DHashTable.setBody, cells_setEntry, hcell]
    exact h.probed.replace hi hk
  · have hcount := liveCount_setEntry (e := { t.entryStore i with body := b' }) t hlt
    rw [hlive, hlive'] at hcount
    exact h.live.trans (Nat.add_right_cancel hcount).symm
  · have hcount := sentinels_setEntry (e := { t.entryStore i with body := b' }) t hlt
    rw [isRemoved_of_live hlive, isRemoved_of_live hlive'] at hcount
    exact h.removed.trans (Nat.add_right_cancel hcount).symm
  · rw [DHashTable.setBody, stores_setEntry, hcell, h.stored_elsewhere hi]
    refine or_congr_left ⟨?_, ?_⟩
    · rintro ⟨_, hb'⟩
      cases hb'
      rfl
    · rintro rfl
      exact ⟨c, rfl⟩
  · rw [hi] at h₁
    cases h₁
    exact ⟨b', c, hcell, hk⟩

/-! ### Removing an entry -/

/-- The entry that a removed one becomes. -/
def leftOver (ops : DHashOps κ β) (c : Bool) : DHashEntry β :=
  ⟨if c then 1#32 else 0#32, ops.cleared⟩

/-- What a removal leaves is free, or removed where a search has passed over it. -/
theorem cell_leftOver (ops : DHashOps κ β) (c : Bool) :
    (leftOver ops c).cell = if c then .removed else .free := by
  cases c <;> rfl

/-- `JS_DHashTableRawRemove` of a live entry, with its collision flag: one entry is
written and the counts go along. Source: lines 584-600 of `js/src/jsdhash.c`. -/
theorem rawRemove_eq (hi : t.cells i = .taken b c) :
    rawRemove ops t i = (t.setEntry i (leftOver ops c)).recount
      (decrement t.entryCount)
      (if c then increment t.removedCount else t.removedCount) := by
  obtain ⟨_, _, hc⟩ := DHashEntry.cell_eq_taken.1 hi
  unfold rawRemove
  by_cases hflag : (t.entryStore i).keyHash &&& collisionFlag = 0#32
  · have hc' : c = false := by
      rw [← hc, hflag]
      rfl
    subst hc'
    simp only [hflag, ne_eq, not_true_eq_false, if_false, DHashTable.setBody, setEntry, leftOver,
      Function.update_idem]
    rfl
  · have hc' : c = true := by
      rw [← hc]
      exact bne_iff_ne.2 hflag
    subst hc'
    simp only [hflag, ne_eq, not_false_eq_true, if_true, DHashTable.setBody, setEntry, leftOver,
      Function.update_idem]
    rfl

/-- Leaving an entry keeps the table tidy, for the flag on it stays as a removed one, and
takes its key out. -/
theorem Tidy.leave (h : t.Tidy ops) (hi : t.cells i = .taken b c) :
    (t.setEntry i (leftOver ops c)).Tidy ops ∧
      ∀ b', (t.setEntry i (leftOver ops c)).Stores b' ↔
        t.Stores b' ∧ ops.getKey b' ≠ ops.getKey b := by
  have hdead : (leftOver ops c).isLive ≠ true := by cases c <;> exact Bool.false_ne_true
  refine ⟨⟨h.shift, ?_, h.hashed.setEntry fun hlive => absurd hlive hdead,
    h.clear_setEntry (.inr rfl)⟩, fun b' => ?_⟩
  · rw [cells_setEntry, cell_leftOver]
    exact h.probed.clear hi
  · have hnone : ¬∃ d, (leftOver ops c).cell = .taken b' d := by
      rintro ⟨d, hd⟩
      exact hdead (DHashEntry.cell_eq_taken.1 hd).1
    rw [stores_setEntry, or_iff_right hnone, h.stored_elsewhere hi]

/-- **`JS_DHashTableRawRemove`** takes the entry out of the table. -/
theorem Sound.rawRemove (h : t.Sound ops) (hi : t.cells i = .taken b c) :
    (rawRemove ops t i).Sound ops ∧
      (∀ b', (DHashTable.rawRemove ops t i).Stores b' ↔
        t.Stores b' ∧ ops.getKey b' ≠ ops.getKey b) ∧
      Kept ops (· = ops.getKey b) t (DHashTable.rawRemove ops t i) := by
  obtain ⟨htidy, hstores⟩ := h.toTidy.leave hi
  have hkept : Kept ops (· = ops.getKey b) t (t.setEntry i (leftOver ops c)) :=
    kept_setEntry fun b₁ c₁ h₁ hne => by
      rw [hi] at h₁
      cases h₁
      exact absurd rfl hne
  have hlt := h.toTidy.lt_size hi
  have hlive := isLive_of_taken hi
  have hsize := size_le h.shift
  have hl := liveCount_setEntry (e := leftOver ops c) t hlt
  have hr := sentinels_setEntry (e := leftOver ops c) t hlt
  have hdead : (leftOver ops c).isLive = false := by cases c <;> rfl
  have hsent : (leftOver ops c).isRemoved = c := by cases c <;> rfl
  rw [hlive, hdead, Bool.toNat_true, Bool.toNat_false] at hl
  rw [isRemoved_of_live hlive, hsent, Bool.toNat_false] at hr
  have hcount := h.live
  have hrem := h.removed
  have hroom := h.room
  rw [rawRemove_eq hi]
  refine ⟨htidy.recount ?_ ?_ ?_ h.alpha,
    fun b' => (stores_recount _ _ _ b').trans (hstores b'), hkept.recount _ _⟩
  · simp only [decrement, uint32]
    omega
  · simp only [increment, uint32]
    cases c with
    | true =>
        rw [if_pos rfl]
        rw [Bool.toNat_true] at hr
        omega
    | false =>
        rw [if_neg Bool.false_ne_true]
        rw [Bool.toNat_false] at hr
        omega
  · have := Bool.toNat_le c
    change _ < t.size
    omega

/-! ### A new store -/

/-- An entry that moves, without its flag. -/
def unflagged (e : DHashEntry β) : DHashEntry β :=
  { e with keyHash := e.keyHash &&& ~~~collisionFlag }

/-- An entry that is copied to a new store has no flag there. -/
theorem cell_unflagged (hlive : e.isLive = true) : (unflagged e).cell = .taken e.body false := by
  rw [DHashEntry.isLive_iff_unflagged] at hlive
  refine DHashEntry.cell_eq_taken.2 ⟨?_, rfl, ?_⟩
  · rw [DHashEntry.isLive_iff_unflagged, unflagged, unflagged_unflagged]
    exact hlive
  · have hz : (e.keyHash &&& ~~~collisionFlag) &&& collisionFlag = 0#32 := by
      have hnone : ~~~collisionFlag &&& collisionFlag = 0#32 := by decide
      rw [BitVec.and_assoc, hnone, BitVec.and_zero]
    rw [unflagged, hz]
    rfl

/-- What the copying of some entries does to the new table. -/
structure Copied (ops : DHashOps κ β) (oldStore : ℕ → DHashEntry β) (indices : List ℕ)
    (t t' : DHashTable β) : Prop where
  rest : t' = { t with entryStore := t'.entryStore }
  tidy : t'.Tidy ops
  sentinels : t'.sentinels = 0
  live : t'.liveCount = t.liveCount + indices.countP fun i => (oldStore i).isLive
  stores : ∀ b, t'.Stores b ↔
    t.Stores b ∨ ∃ i ∈ indices, (oldStore i).isLive = true ∧ (oldStore i).body = b

/-- Where nothing was removed and not everything is live, something is free. -/
theorem exists_free_of_count (h0 : t.sentinels = 0) (hlt : t.liveCount < t.size) :
    ∃ i < t.size, t.cells i = .free := by
  have hall := countEntries_all t.size t.entryStore
  unfold DHashTable.sentinels at h0
  unfold liveCount at hlt
  have hpos : 0 < countEntries DHashEntry.isFree t.size t.entryStore := by omega
  obtain ⟨i, hi, hp⟩ := exists_of_countEntries_pos hpos
  exact ⟨i, hi, DHashEntry.cell_eq_free.2 hp⟩

/-- One entry is copied. -/
theorem Tidy.copy (hl : ops.Lawful) (h : t.Tidy ops) (h0 : t.sentinels = 0)
    (hroom : t.liveCount < t.size) (hlive : e.isLive = true)
    (hhash : e.keyHash &&& ~~~collisionFlag = keyHashOf ops (ops.getKey e.body))
    (habsent : Absent ops.getKey t.cells (ops.getKey e.body)) :
    ∃ i t', searchTable ops t (ops.getKey e.body) (unflagged e).keyHash .add = some (i, t') ∧
      (t'.setEntry i (unflagged e)).Tidy ops ∧
      (t'.setEntry i (unflagged e)) =
        { t with entryStore := (t'.setEntry i (unflagged e)).entryStore } ∧
      (t'.setEntry i (unflagged e)).sentinels = 0 ∧
      (t'.setEntry i (unflagged e)).liveCount = t.liveCount + 1 ∧
      ∀ b, (t'.setEntry i (unflagged e)).Stores b ↔ b = e.body ∨ t.Stores b := by
  obtain ⟨k, hk, hfree⟩ := exists_free_of_count h0 hroom
  have hs := h.shift
  have hpos : 0 < t.hashShift := by omega
  have hlt : t.hashShift < 32 := by omega
  obtain ⟨i, t', heq, hf, hfound⟩ := @searchTable_spec κ β ops t (ops.getKey e.body) .add k hl
    h.hashed hpos hlt hk hfree
  have hkeyHash : (unflagged e).keyHash = keyHashOf ops (ops.getKey e.body) := hhash
  refine ⟨i, t', by rw [hkeyHash]; exact heq, ?_⟩
  cases hfound with
  | hit b c hi hkey => exact absurd hkey (habsent i b c hi)
  | miss n hi hempty hpass _ =>
      have hlt' : i < t.size := hi ▸ path_lt hs _ n
      have hi' : i < t'.size := hf.size_eq ▸ hlt'
      have hnot : t.cells i ≠ .removed := by
        intro hr
        have := countEntries_pos (p := DHashEntry.isRemoved) hlt'
          (DHashEntry.cell_eq_removed.1 hr)
        unfold DHashTable.sentinels at h0
        omega
      have hfreeᵢ : t.cells i = .free := hempty.resolve_right fun hr => hnot hr.2
      have hcell := cell_unflagged hlive
      obtain ⟨htidy, hstores⟩ := h.place hf hi (.inl hfreeᵢ) (hpass rfl) habsent hcell rfl
        (by rw [hkeyHash]; exact keyHashOf_unflagged ops _) (fun hr => absurd hr hnot)
      have hdead : (t'.entryStore i).isLive = false := by
        rw [hf.isLive]
        have := DHashEntry.cell_eq_free.1 hfreeᵢ
        exact Bool.eq_false_iff.2 fun hv => by
          rw [DHashEntry.isLive_iff, this] at hv
          exact absurd hv.1.symm Bool.false_ne_true
      have hne : (t'.entryStore i).isRemoved = false := by
        rw [hf.isRemoved]
        exact Bool.eq_false_iff.2 fun hr => hnot (DHashEntry.cell_eq_removed.2 hr)
      have hlive' := (DHashEntry.cell_eq_taken.1 hcell).1
      have hcount := liveCount_setEntry (e := unflagged e) t' hi'
      have hcount' := sentinels_setEntry (e := unflagged e) t' hi'
      rw [hdead, hlive', hf.liveCount] at hcount
      rw [hne, isRemoved_of_live hlive', hf.sentinels, h0] at hcount'
      refine ⟨htidy, ?_, hcount', hcount, hstores⟩
      rw [setEntry, hf.rest]

/-- A live entry is found a new place, then the rest is copied. -/
theorem Copied.cons_live {oldStore : ℕ → DHashEntry β} {is : List ℕ} {t'' : DHashTable β}
    (hlive : (oldStore i).isLive = true) (hrest : t' = { t with entryStore := t'.entryStore })
    (hcount : t'.liveCount = t.liveCount + 1)
    (hstores : ∀ b, t'.Stores b ↔ b = (oldStore i).body ∨ t.Stores b)
    (h : Copied ops oldStore is t' t'') : Copied ops oldStore (i :: is) t t'' where
  rest := by rw [h.rest, hrest]
  tidy := h.tidy
  sentinels := h.sentinels
  live := by
    rw [h.live, hcount, List.countP_cons, if_pos hlive]
    omega
  stores b := by
    rw [h.stores, hstores]
    constructor
    · rintro ((rfl | hb) | ⟨j, hj, hb⟩)
      · exact .inr ⟨i, List.mem_cons_self .., hlive, rfl⟩
      · exact .inl hb
      · exact .inr ⟨j, List.mem_cons_of_mem _ hj, hb⟩
    · rintro (hb | ⟨j, hj, hlivej, hb⟩)
      · exact .inl (.inr hb)
      · rcases List.mem_cons.1 hj with rfl | hj
        · exact .inl (.inl hb.symm)
        · exact .inr ⟨j, hj, hlivej, hb⟩

/-- An entry that is not live is left behind. -/
theorem Copied.cons_dead {oldStore : ℕ → DHashEntry β} {is : List ℕ}
    (hdead : ¬(oldStore i).isLive = true) (h : Copied ops oldStore is t t') :
    Copied ops oldStore (i :: is) t t' where
  rest := h.rest
  tidy := h.tidy
  sentinels := h.sentinels
  live := by
    rw [h.live, List.countP_cons, if_neg hdead]
    rfl
  stores b := by
    rw [h.stores]
    refine or_congr_right ⟨fun ⟨j, hj, hb⟩ => ⟨j, List.mem_cons_of_mem _ hj, hb⟩, ?_⟩
    rintro ⟨j, hj, hlivej, hb⟩
    rcases List.mem_cons.1 hj with rfl | hj
    · exact absurd hlivej hdead
    · exact ⟨j, hj, hlivej, hb⟩

/-- **The live entries are copied**, when there is room for them and no two have one key. -/
theorem copyLive_spec (hl : ops.Lawful) {oldStore : ℕ → DHashEntry β} {indices : List ℕ}
    (hnodup : indices.Nodup)
    (hhash : ∀ i, (oldStore i).isLive = true →
      (oldStore i).keyHash &&& ~~~collisionFlag = keyHashOf ops (ops.getKey (oldStore i).body))
    (hunique : ∀ i j, (oldStore i).isLive = true → (oldStore j).isLive = true →
      ops.getKey (oldStore i).body = ops.getKey (oldStore j).body → i = j)
    (h : t.Tidy ops) (h0 : t.sentinels = 0)
    (hroom : t.liveCount + (indices.countP fun i => (oldStore i).isLive) < t.size)
    (habsent : ∀ i ∈ indices, (oldStore i).isLive = true →
      Absent ops.getKey t.cells (ops.getKey (oldStore i).body)) :
    ∃ t', copyLive ops oldStore indices t = some t' ∧ Copied ops oldStore indices t t' := by
  induction indices generalizing t with
  | nil => exact ⟨t, rfl, rfl, h, h0, rfl, fun b => by simp⟩
  | cons i is ih =>
      rw [List.nodup_cons] at hnodup
      rw [List.countP_cons] at hroom
      unfold copyLive
      by_cases hlive : (oldStore i).isLive = true
      · rw [if_pos hlive] at hroom ⊢
        obtain ⟨n, t₁, heq, htidy, hrest, h0', hlive₁, hstores⟩ :=
          h.copy hl h0 (by omega) hlive (hhash i hlive) (habsent i (List.mem_cons_self ..) hlive)
        have hsize : (t₁.setEntry n (unflagged (oldStore i))).size = t.size := by
          rw [hrest]
          rfl
        obtain ⟨t', heq', hcop⟩ := ih hnodup.2 htidy h0'
          (by rw [hlive₁, hsize]; omega) (fun j hj hlivej => by
            intro k b c hk hkey
            rcases (hstores b).1 ⟨k, c, hk⟩ with rfl | ⟨k', c', hk'⟩
            · exact hnodup.1 (hunique i j hlive hlivej hkey ▸ hj)
            · exact habsent j (List.mem_cons_of_mem _ hj) hlivej k' b c' hk' hkey)
        refine ⟨t', ?_, hcop.cons_live hlive hrest hlive₁ hstores⟩
        simp only [unflagged] at heq heq'
        simp only [heq, heq']
      · rw [if_neg hlive] at hroom ⊢
        obtain ⟨t', heq', hcop⟩ := ih hnodup.2 h h0 hroom
          fun j hj => habsent j (List.mem_cons_of_mem _ hj)
        exact ⟨t', heq', hcop.cons_dead hlive⟩

/-- The cell of a live entry is taken, by its members. -/
theorem taken_of_live (hlive : (t.entryStore i).isLive = true) :
    ∃ c, t.cells i = .taken (t.entryStore i).body c :=
  ⟨_, DHashEntry.cell_of_live hlive⟩

/-- What is stored is what the live entries of the store have. -/
theorem Tidy.stores_iff (h : t.Tidy ops) (b : β) :
    t.Stores b ↔
      ∃ i ∈ List.range t.size, (t.entryStore i).isLive = true ∧ (t.entryStore i).body = b := by
  constructor
  · rintro ⟨i, c, hi⟩
    obtain ⟨hlive, hb, _⟩ := DHashEntry.cell_eq_taken.1 hi
    exact ⟨i, List.mem_range.2 (h.lt_size hi), hlive, hb⟩
  · rintro ⟨i, _, hlive, rfl⟩
    obtain ⟨c, hc⟩ := taken_of_live hlive
    exact ⟨i, c, hc⟩

/-- A store of free entries. -/
theorem tidy_free (hs : 8 < t.hashShift ∧ t.hashShift ≤ 28)
    (he : ∀ i, t.entryStore i = ⟨0#32, ops.cleared⟩) :
    t.Tidy ops ∧ t.liveCount = 0 ∧ t.sentinels = 0 ∧ ∀ b, ¬t.Stores b := by
  have hcells : t.cells = fun _ => .free := by
    funext i
    rw [cells, he]
    rfl
  have hdead : ∀ i, (t.entryStore i).isLive = false ∧ (t.entryStore i).isRemoved = false := by
    intro i
    rw [he]
    exact ⟨rfl, rfl⟩
  refine ⟨⟨hs, hcells ▸ probed_free, fun i hi => ?_, fun i _ => by rw [he]⟩, ?_, ?_,
    fun b hb => ?_⟩
  · rw [(hdead i).1] at hi
    exact absurd hi Bool.false_ne_true
  · exact List.countP_eq_zero.2 fun i _ => by simp [hdead i]
  · exact List.countP_eq_zero.2 fun i _ => by simp [hdead i]
  · obtain ⟨i, c, hi⟩ := hb
    rw [hcells] at hi
    cases hi

/-- All entries of a table are copied to an empty one, when it has room for them. -/
theorem Sound.copy (hl : ops.Lawful) (h : t.Sound ops) (htidy : t'.Tidy ops)
    (hlive0 : t'.liveCount = 0) (hsent0 : t'.sentinels = 0) (hnone : ∀ b, ¬t'.Stores b)
    (hroom : t.entryCount < t'.size) :
    ∃ t'', copyLive ops t.entryStore (List.range t.size) t' = some t'' ∧
      t'' = { t' with entryStore := t''.entryStore } ∧ t''.Tidy ops ∧ t''.sentinels = 0 ∧
      t''.liveCount = t.entryCount ∧ ∀ b, t''.Stores b ↔ t.Stores b := by
  have hcount : (List.range t.size).countP (fun i => (t.entryStore i).isLive) = t.entryCount :=
    h.live.symm
  obtain ⟨t'', heq, hcop⟩ := copyLive_spec hl List.nodup_range h.hashed
    (fun i j hi hj hkey => by
      obtain ⟨c, hc⟩ := taken_of_live hi
      obtain ⟨d, hd⟩ := taken_of_live hj
      exact h.probed.unique i j _ _ c d hc hd hkey)
    htidy hsent0 (by rw [hcount, hlive0, Nat.zero_add]; exact hroom)
    (fun _ _ _ j b c hj => absurd ⟨j, c, hj⟩ (hnone b))
  refine ⟨t'', heq, hcop.rest, hcop.tidy, hcop.sentinels, ?_, fun b => ?_⟩
  · rw [hcop.live, hlive0, Nat.zero_add]
    exact hcount
  · rw [hcop.stores, or_iff_right (hnone b), h.toTidy.stores_iff]

/-- What `ChangeTable` comes to. -/
structure Changed (ops : DHashOps κ β) (t t' : DHashTable β) (newLog2 : ℕ) (alloc changed : Bool) :
    Prop where
  sound : t'.Sound ops
  stores : ∀ b, t'.Stores b ↔ t.Stores b
  entryCount : t'.entryCount = t.entryCount
  minAlphaFrac : t'.minAlphaFrac = t.minAlphaFrac
  same : changed = false → t' = t ∧ (alloc = false ∨ sizeLimit ≤ 2 ^ newLog2)
  fresh : changed = true → t'.removedCount = 0 ∧ t'.size = 2 ^ newLog2 ∧
    t'.generation = increment t.generation

/-- **`ChangeTable`** fails and leaves the table alone, or keeps what it stores, provided
that the entries leave one free in the new store. -/
theorem Sound.changeTable (hl : ops.Lawful) (h : t.Sound ops) (deltaLog2 : ℤ) (newLog2 : ℕ)
    (hlog : ((bits - t.hashShift : ℕ) : ℤ) + deltaLog2 = newLog2) (hmin : 4 ≤ newLog2)
    (hroom : t.entryCount < 2 ^ newLog2) (alloc : Bool) :
    ∃ changed t', changeTable ops t deltaLog2 alloc = some (changed, t') ∧
      Changed ops t t' newLog2 alloc changed := by
  have hself : alloc = false ∨ sizeLimit ≤ 2 ^ newLog2 → Changed ops t t newLog2 alloc false :=
    fun hwhy => ⟨h, fun _ => Iff.rfl, rfl, rfl, fun _ => ⟨rfl, hwhy⟩,
      fun e => absurd e Bool.false_ne_true⟩
  simp only [DHashTable.changeTable, hlog, Int.toNat_natCast]
  by_cases hlimit : 2 ^ newLog2 ≥ sizeLimit
  · rw [if_pos hlimit]
    exact ⟨_, _, rfl, hself (.inr hlimit)⟩
  rw [if_neg hlimit]
  cases alloc with
  | false => exact ⟨_, _, rfl, hself (.inl rfl)⟩
  | true =>
      have hlt : newLog2 < 24 := by
        by_contra hge
        exact hlimit (Nat.pow_le_pow_right (by decide) (Nat.le_of_not_lt hge))
      rw [if_neg (by decide)]
      generalize hnew : ({ t with
        hashShift := bits - newLog2
        removedCount := 0
        generation := increment t.generation
        entryStore := fun _ => ⟨0#32, ops.cleared⟩ } : DHashTable β) = new
      have hsize : new.size = 2 ^ newLog2 := by
        rw [← hnew, size]
        have hsub : bits - (bits - newLog2) = newLog2 := by
          unfold bits
          omega
        rw [hsub]
      have hshift : 8 < new.hashShift ∧ new.hashShift ≤ 28 := by
        rw [← hnew]
        change 8 < 32 - newLog2 ∧ 32 - newLog2 ≤ 28
        omega
      obtain ⟨htidy, hlive0, hsent0, hnone⟩ := @tidy_free κ β ops new hshift
        (fun i => by rw [← hnew])
      obtain ⟨t', heq, hrest, htidy', hsent, hlive, hstores⟩ :=
        h.copy hl htidy hlive0 hsent0 hnone (by rw [hsize]; exact hroom)
      change copyLive ops t.entryStore (List.range (2 ^ (bits - t.hashShift))) new = _ at heq
      rw [heq]
      have hsize' : t'.size = 2 ^ newLog2 := by
        rw [hrest]
        exact hsize
      rw [← hnew] at hrest
      refine ⟨true, t', rfl, ⟨htidy', ?_, ?_, ?_, ?_⟩, hstores, ?_, ?_,
        fun e => absurd e.symm Bool.false_ne_true, fun _ => ⟨?_, hsize', ?_⟩⟩
      · rw [hlive, hrest]
      · rw [hsent, hrest]
      · rw [hsize', hrest]
        exact hroom
      · rw [hrest]
        exact h.alpha
      · rw [hrest]
      · rw [hrest]
      · rw [hrest]
      · rw [hrest]

end DHashTable

end ProntoScript
