/-
# Runs of calls on a table

What a user of a table sees is a finite map: what a lookup finds, what an addition returns,
what an enumeration goes over.  A run of calls on a new table is a run on the empty map with
the same results (`run_maps`), and the next call returns as well, since there is always a
free entry at which a search ends.

For that the user keeps the key of an entry that it writes to, and writes it to a new one.
And no `initEntry` fails for an entry that was to be recycled: `run_counted_iff` says that
these are the runs in which the counts of the table stay right.

An entry's address may be kept while the generation of the table is the same and the entry
is not removed (`run_entry_stays`).
-/

import ProntoScript.Hashing.Enumerate
import ProntoScript.Foundation.Transition

namespace ProntoScript

open DHash Probing Transition

variable {κ β σ : Type*}

/-- A call on a table.  A lookup and an addition come with what the user makes of the
members of the entry that it gets. -/
inductive DHashCall (κ β σ : Type*)
  | lookup (key : κ) (write : β → β)
  | add (key : κ) (alloc : Bool) (init : DHashTable.InitEntry β) (write : β → β)
  | remove (key : κ) (alloc : Bool)
  | rawRemove (key : κ)
  | enumerate (etor : β → ℕ → σ → DHashTable.Enumerated σ) (arg : σ) (alloc : Bool)

/-- What the user gets: the members of the entry if it is not free or null, or the number of
the entries visited and the argument. -/
inductive DHashResult (β σ : Type*)
  | entry (b : Option β)
  | removed
  | enumerated (count : ℕ) (arg : σ)

namespace DHashTable

variable {ops : DHashOps κ β} {t t' : DHashTable β} {key : κ} {i j n : ℕ} {b b' : β} {c : Bool}

/-- A call, with what the user writes to the entry.  An entry is removed by
`JS_DHashTableRawRemove` after it was looked up. -/
def execute (ops : DHashOps κ β) (t : DHashTable β) :
    DHashCall κ β σ → Option (DHashResult β σ × DHashTable β)
  | .lookup key write =>
      match lookup ops t key with
      | none => none
      | some (i, t) =>
          if (t.entryStore i).isFree then some (.entry none, t)
          else some (.entry (some (t.entryStore i).body), t.setBody i (write (t.entryStore i).body))
  | .add key alloc init write =>
      match add ops t key alloc init with
      | none => none
      | some (none, t) => some (.entry none, t)
      | some (some i, t) =>
          some (.entry (some (t.entryStore i).body), t.setBody i (write (t.entryStore i).body))
  | .remove key alloc =>
      match remove ops t key alloc with
      | none => none
      | some t => some (.removed, t)
  | .rawRemove key =>
      match lookup ops t key with
      | none => none
      | some (i, t) =>
          if (t.entryStore i).isFree then some (.removed, t)
          else some (.removed, rawRemove ops t i)
  | .enumerate etor arg alloc =>
      match enumerate ops t etor arg alloc with
      | none => none
      | some (count, t, arg) => some (.enumerated count arg, t)

/-- The user keeps the key of an entry that it writes to, and writes the key to a new one.
-/
def Proper (ops : DHashOps κ β) : DHashCall κ β σ → Prop
  | .lookup key write => ∀ b, ops.getKey b = key → ops.getKey (write b) = key
  | .add key _ init write =>
      (∀ b, ops.getKey b = key → ops.getKey (write b) = key) ∧
        ∀ b, init.given ops.cleared = some b → ops.getKey (write b) = key
  | _ => True

/-- An `initEntry` fails for an entry that was to be recycled. -/
def SpoilsCall (ops : DHashOps κ β) (t : DHashTable β) : DHashCall κ β σ → Prop
  | .add key alloc init _ => addSpoils ops t key alloc init = true
  | _ => False

/-- The steps of a run: proper calls and what they return. -/
def DSteps (ops : DHashOps κ β) (t : DHashTable β) (e : DHashCall κ β σ × DHashResult β σ)
    (t' : DHashTable β) : Prop :=
  Proper ops e.1 ∧ execute ops t e.1 = some (e.2, t')

/-! ### Finite maps -/

instance (removed : List β) [DecidableEq κ] : DecidablePred (KeysOf ops removed) := fun k =>
  inferInstanceAs (Decidable (∃ r ∈ removed, ops.getKey r = k))

variable [DecidableEq κ]

/-- The calls on a finite map, with the results that a user gets: an addition may fail,
and an enumeration goes over the values in an order that the map does not say. -/
def MapSteps (ops : DHashOps κ β) (m : κ → Option β) :
    DHashCall κ β σ × DHashResult β σ → (κ → Option β) → Prop
  | (.lookup key write, r), m' =>
      r = .entry (m key) ∧ m' = Function.update m key ((m key).map write)
  | (.add key alloc init write, r), m' =>
      -- the key's value, or a new one
      (∃ b, (m key = some b ∨ m key = none ∧ init.given ops.cleared = some b) ∧
        r = .entry (some b) ∧ m' = Function.update m key (some (write b))) ∨
      -- no memory, or more than the largest table has room for
      r = .entry none ∧ m' = m ∧ (init = .fails ∨ alloc = false ∨
        ∃ bs : List β, (bs.map ops.getKey).Nodup ∧ (∀ b ∈ bs, m (ops.getKey b) = some b) ∧
          3 * 2 ^ 21 ≤ bs.length)
  | (.remove key _, r), m' => r = .removed ∧ m' = Function.update m key none
  | (.rawRemove key, r), m' => r = .removed ∧ m' = Function.update m key none
  | (.enumerate etor arg _, r), m' =>
      -- in some order
      ∃ bs : List β, (bs.map ops.getKey).Nodup ∧ (∀ b, b ∈ bs ↔ m (ops.getKey b) = some b) ∧
        r = .enumerated (visit etor bs 0 arg).1 (visit etor bs 0 arg).2.2 ∧
        m' = fun k => if KeysOf ops (visit etor bs 0 arg).2.1 k then none else m k

/-- The table stores the values of the map, each under its own key. -/
def Represents (ops : DHashOps κ β) (t : DHashTable β) (m : κ → Option β) : Prop :=
  ∀ k b, m k = some b ↔ ops.getKey b = k ∧ t.Stores b

omit [DecidableEq κ] in
/-- Tables that store the same represent the same maps. -/
theorem Represents.congr {m : κ → Option β} (h : Represents ops t m)
    (hs : ∀ b, t'.Stores b ↔ t.Stores b) : Represents ops t' m := by
  intro k b
  rw [h k b, hs]

omit [DecidableEq κ] in
/-- A key that no stored value has is not in the map. -/
theorem Represents.eq_none {m : κ → Option β} (h : Represents ops t m)
    (hn : ∀ b, t.Stores b → ops.getKey b ≠ key) : m key = none := by
  refine Option.eq_none_iff_forall_ne_some.2 fun b hb => ?_
  obtain ⟨hk, hs⟩ := (h key b).1 hb
  exact hn b hs hk

omit [DecidableEq κ] in
/-- What is stored is in the map under its key. -/
theorem Represents.stored {m : κ → Option β} (h : Represents ops t m) (hs : t.Stores b) :
    m (ops.getKey b) = some b :=
  (h _ b).2 ⟨rfl, hs⟩

/-- A value is written. -/
theorem Represents.write {m : κ → Option β} (h : Represents ops t m)
    (hk : ops.getKey b = key)
    (hs : ∀ b', t'.Stores b' ↔ b' = b ∨ t.Stores b' ∧ ops.getKey b' ≠ key) :
    Represents ops t' (Function.update m key (some b)) := by
  intro k b'
  rw [hs]
  by_cases he : k = key
  · subst he
    rw [Function.update_self]
    constructor
    · intro e
      cases e
      exact ⟨hk, .inl rfl⟩
    · rintro ⟨hk', rfl | ⟨_, hne⟩⟩
      · rfl
      · exact absurd hk' hne
  · rw [Function.update_of_ne he, h k b']
    constructor
    · rintro ⟨rfl, hb'⟩
      exact ⟨rfl, .inr ⟨hb', he⟩⟩
    · rintro ⟨rfl, rfl | ⟨hb', _⟩⟩
      · exact absurd hk he
      · exact ⟨rfl, hb'⟩

omit [DecidableEq κ] in
/-- Keys go. -/
theorem Represents.restrict {m : κ → Option β} (h : Represents ops t m) (gone : κ → Prop)
    [DecidablePred gone] (hs : ∀ b, t'.Stores b ↔ t.Stores b ∧ ¬gone (ops.getKey b)) :
    Represents ops t' fun k => if gone k then none else m k := by
  intro k b
  rw [hs]
  by_cases hg : gone k
  · simp only [if_pos hg]
    refine ⟨fun e => (by cases e), ?_⟩
    rintro ⟨rfl, _, hn⟩
    exact absurd hg hn
  · simp only [if_neg hg]
    rw [h k b]
    constructor
    · rintro ⟨rfl, hb⟩
      exact ⟨rfl, hb, hg⟩
    · rintro ⟨rfl, hb, _⟩
      exact ⟨rfl, hb⟩

/-- A key goes. -/
theorem Represents.erase {m : κ → Option β} (h : Represents ops t m)
    (hs : ∀ b, t'.Stores b ↔ t.Stores b ∧ ops.getKey b ≠ key) :
    Represents ops t' (Function.update m key none) := by
  have he : Function.update m key none = fun k => if k = key then none else m k := by
    funext k
    by_cases hk : k = key
    · subst hk
      rw [Function.update_self, if_pos rfl]
    · rw [Function.update_of_ne hk, if_neg hk]
  rw [he]
  exact h.restrict (· = key) hs

/-- A key that is not there need not go. -/
theorem Represents.erase_absent {m : κ → Option β} (h : Represents ops t m)
    (hn : ∀ b, t.Stores b → ops.getKey b ≠ key) :
    Represents ops t (Function.update m key none) := by
  rw [← h.eq_none hn, Function.update_eq_self]
  exact h

/-! ### One call -/

/-- The keys that a table has no entries for. -/
def Gone (ops : DHashOps κ β) (t : DHashTable β) (k : κ) : Prop :=
  ∀ b, t.Stores b → ops.getKey b ≠ k

omit [DecidableEq κ] in
/-- What moves no entry but of keys that are gone afterwards keeps all that are still
there. -/
theorem Kept.gone {gone : κ → Prop} (h : Kept ops gone t t')
    (hg : ∀ k, gone k → Gone ops t' k) : Kept ops (Gone ops t') t t' :=
  ⟨h.generation, fun i b c hi hn => h.entry i b c hi fun e => hn (hg _ e)⟩

/-- What a call in order does: it is the call on the map, the table stays in order, and its
entries stay where they are unless the store is a new one. -/
structure Served (ops : DHashOps κ β) (t : DHashTable β) (call : DHashCall κ β σ)
    (r : DHashResult β σ) (t' : DHashTable β) : Prop where
  sound : t'.Sound ops
  map : ∀ m, Represents ops t m → ∃ m', MapSteps ops m (call, r) m' ∧ Represents ops t' m'
  moved : Kept ops (Gone ops t') t t' ∨ t'.generation = increment t.generation

omit [DecidableEq κ] in
/-- An entry with a key is not free. -/
theorem isFree_of_taken (hi : t.cells i = .taken b c) : (t.entryStore i).isFree = false :=
  (DHashEntry.isLive_iff.1 (isLive_of_taken hi)).1

/-- **A lookup** is one in the map, and what the user writes to the entry is written to
the map. -/
theorem Sound.serve_lookup (hl : ops.Lawful) (h : t.Sound ops) {write : β → β}
    (hp : ∀ b, ops.getKey b = key → ops.getKey (write b) = key) :
    ∃ r t', execute ops t (.lookup key write : DHashCall κ β σ) = some (r, t') ∧
      Served ops t (.lookup key write : DHashCall κ β σ) r t' := by
  obtain ⟨i, heq, hfound⟩ := h.lookup hl key
  simp only [execute, heq]
  rcases hfound with ⟨b, c, hi, hkey⟩ | ⟨hi, habsent⟩
  · have hb : (t.entryStore i).body = b := (DHashEntry.cell_eq_taken.1 hi).2.1
    rw [isFree_of_taken hi, hb, if_neg Bool.false_ne_true]
    have hk : ops.getKey (write b) = ops.getKey b := (hp b hkey).trans hkey.symm
    obtain ⟨hs, hstores, hkept⟩ := h.setBody hi hk
    rw [hkey] at hstores
    refine ⟨_, _, rfl, hs, fun m hm => ?_, .inl (hkept.gone fun k => False.elim)⟩
    have hmk : m key = some b := hkey ▸ hm.stored ⟨i, c, hi⟩
    refine ⟨_, ⟨by rw [hmk], rfl⟩, ?_⟩
    rw [hmk]
    exact hm.write (hp b hkey) hstores
  · rw [DHashEntry.cell_eq_free.1 hi, if_pos rfl]
    refine ⟨_, _, rfl, h, fun m hm => ?_, .inl (.refl _ _ _)⟩
    have hmk : m key = none := hm.eq_none fun b ⟨j, c, hj⟩ => habsent j b c hj
    refine ⟨_, ⟨by rw [hmk], rfl⟩, ?_⟩
    rw [hmk]
    exact hm.erase_absent fun b ⟨j, c, hj⟩ => habsent j b c hj

omit [DecidableEq κ] in
/-- `entryCount` is the number of values stored. -/
theorem Sound.length_bodies (h : t.Sound ops) : t.bodies.length = t.entryCount := by
  rw [h.live, bodies, bodiesAt, List.length_map, ← List.countP_eq_length_filter]
  rfl

/-- The table is full: its entries are too many for a larger one. -/
theorem Sound.serve_full (h : t.Sound ops) {alloc : Bool} {init : InitEntry β} {write : β → β}
    (hwhy : alloc = false ∨ 3 * 2 ^ 21 ≤ t.entryCount) :
    Served ops t (.add key alloc init write : DHashCall κ β σ) (.entry none) t := by
  refine ⟨h, fun m hm => ⟨m, .inr ⟨rfl, rfl, .inr (hwhy.imp_right fun hn => ?_)⟩, hm⟩,
    .inl (.refl _ _ _)⟩
  refine ⟨t.bodies, h.toTidy.nodup_bodies, fun b hb => ?_, ?_⟩
  · exact hm.stored ((h.toTidy.mem_bodies b).1 hb)
  · rw [h.length_bodies]
    exact hn

omit [DecidableEq κ] in
/-- Growing first does not change what moves. -/
theorem Grown.moved {t₁ : DHashTable β} {alloc goesOn : Bool} (h : Grown ops t t₁ alloc goesOn)
    (hk : Kept ops NoKey t₁ t') :
    Kept ops (Gone ops t') t t' ∨ t'.generation = increment t.generation := by
  rcases h.same with rfl | hg
  · exact .inl (hk.gone fun k => False.elim)
  · rw [hk.generation]
    exact .inr hg

/-- **An addition** finds the value of the key, or makes a new one, or fails as the map
allows. -/
theorem Sound.serve_add (hl : ops.Lawful) (h : t.Sound ops) {alloc : Bool} {init : InitEntry β}
    {write : β → β} (hp : ∀ b, ops.getKey b = key → ops.getKey (write b) = key)
    (hnew : ∀ b, init.given ops.cleared = some b → ops.getKey (write b) = key)
    (hspoils : addSpoils ops t key alloc init = false) :
    ∃ r t', execute ops t (.add key alloc init write : DHashCall κ β σ) = some (r, t') ∧
      Served ops t (.add key alloc init write : DHashCall κ β σ) r t' := by
  obtain ⟨r, t', heq, hcase⟩ := h.add hl key alloc init
  simp only [execute, heq]
  rcases hcase with ⟨rfl, rfl, hwhy, _⟩ | ⟨t₁, hgrown, hadded⟩
  · exact ⟨_, _, rfl, h.serve_full hwhy⟩
  rw [hspoils] at hadded
  cases hadded with
  | present i t' b c hs hstores hkept hi hkey =>
      have hb : (t'.entryStore i).body = b := (DHashEntry.cell_eq_taken.1 hi).2.1
      simp only [hb]
      have hk : ops.getKey (write b) = ops.getKey b := (hp b hkey).trans hkey.symm
      obtain ⟨hs', hstores', hkept'⟩ := hs.setBody hi hk
      rw [hkey] at hstores'
      refine ⟨_, _, rfl, hs', fun m hm => ?_,
        hgrown.moved (hkept.trans hkept' (fun _ => id) fun _ => id)⟩
      have hm' : Represents ops t' m := (hm.congr hgrown.stores).congr hstores
      have hmk : m key = some b := hkey ▸ hm'.stored ⟨i, c, hi⟩
      exact ⟨_, .inl ⟨b, .inl hmk, rfl, rfl⟩, hm'.write (hp b hkey) hstores'⟩
  | new i t' b habsent hgiven hi hfill =>
      simp only [hi]
      obtain ⟨hs', hstores', hkept'⟩ := hfill (write b) (hnew b hgiven)
      refine ⟨_, _, rfl, hs', fun m hm => ?_, hgrown.moved hkept'⟩
      have hm' : Represents ops t₁ m := hm.congr hgrown.stores
      have hmk : m key = none := hm'.eq_none habsent
      refine ⟨_, .inl ⟨b, .inr ⟨hmk, hgiven⟩, rfl, rfl⟩, hm'.write (hnew b hgiven) fun b' => ?_⟩
      rw [hstores']
      exact or_congr_right ⟨fun hb => ⟨hb, habsent b' hb⟩, And.left⟩
  | failed t' hinit hs hstores hkept =>
      refine ⟨_, _, rfl, hs, fun m hm => ⟨m, .inr ⟨rfl, rfl, .inl hinit⟩, ?_⟩, hgrown.moved hkept⟩
      exact (hm.congr hgrown.stores).congr hstores

/-- **A removal** takes the key out of the map; the table may shrink, and then its entries
move. -/
theorem Sound.serve_remove (hl : ops.Lawful) (h : t.Sound ops) (key : κ) (alloc : Bool) :
    ∃ r t', execute ops t (.remove key alloc : DHashCall κ β σ) = some (r, t') ∧
      Served ops t (.remove key alloc : DHashCall κ β σ) r t' := by
  obtain ⟨t', heq, hs, hstores, hmoved⟩ := h.remove hl key alloc
  simp only [execute, heq]
  refine ⟨_, _, rfl, hs, fun m hm => ⟨_, ⟨rfl, rfl⟩, hm.erase hstores⟩, hmoved.imp_left ?_⟩
  intro hkept
  refine hkept.gone fun k hk b hb hbk => ?_
  exact ((hstores b).1 hb).2 (hbk.trans hk)

/-- **A raw removal** of what a lookup found takes the key out of the map, and nothing
moves. -/
theorem Sound.serve_rawRemove (hl : ops.Lawful) (h : t.Sound ops) (key : κ) :
    ∃ r t', execute ops t (.rawRemove key : DHashCall κ β σ) = some (r, t') ∧
      Served ops t (.rawRemove key : DHashCall κ β σ) r t' := by
  obtain ⟨i, heq, hfound⟩ := h.lookup hl key
  simp only [execute, heq]
  rcases hfound with ⟨b, c, hi, hkey⟩ | ⟨hi, habsent⟩
  · rw [isFree_of_taken hi, if_neg Bool.false_ne_true]
    obtain ⟨hs, hstores, hkept⟩ := h.rawRemove hi
    rw [hkey] at hstores hkept
    refine ⟨_, _, rfl, hs, fun m hm => ⟨_, ⟨rfl, rfl⟩, hm.erase hstores⟩, .inl ?_⟩
    refine hkept.gone fun k hk b hb hbk => ?_
    exact ((hstores b).1 hb).2 (hbk.trans hk)
  · rw [DHashEntry.cell_eq_free.1 hi, if_pos rfl]
    refine ⟨_, _, rfl, h, fun m hm => ⟨_, ⟨rfl, rfl⟩, ?_⟩, .inl (.refl _ _ _)⟩
    exact hm.erase_absent fun b ⟨j, c, hj⟩ => habsent j b c hj

/-- **An enumeration** goes over the values of the map in some order and takes out the
keys that its callback removes. -/
theorem Sound.serve_enumerate (hl : ops.Lawful) (h : t.Sound ops)
    (etor : β → ℕ → σ → Enumerated σ) (arg : σ) (alloc : Bool) :
    ∃ r t', execute ops t (.enumerate etor arg alloc : DHashCall κ β σ) = some (r, t') ∧
      Served ops t (.enumerate etor arg alloc : DHashCall κ β σ) r t' := by
  obtain ⟨t', heq, hs, hstores, hmoved⟩ := h.enumerate hl etor arg alloc
  simp only [execute, heq]
  refine ⟨_, _, rfl, hs, fun m hm => ?_, hmoved.imp_left fun hkept => ?_⟩
  · refine ⟨_, ⟨t.bodies, h.toTidy.nodup_bodies, fun b => ?_, rfl, rfl⟩, hm.restrict _ hstores⟩
    rw [h.toTidy.mem_bodies, hm]
    exact ⟨fun hb => ⟨rfl, hb⟩, And.right⟩
  · refine hkept.gone fun k hk b hb hbk => ?_
    exact ((hstores b).1 hb).2 (hbk ▸ hk)

/-- **A call in order is served.** -/
theorem Sound.serve (hl : ops.Lawful) (h : t.Sound ops) {call : DHashCall κ β σ}
    (hp : Proper ops call) (hspoils : ¬SpoilsCall ops t call) :
    ∃ r t', execute ops t call = some (r, t') ∧ Served ops t call r t' := by
  cases call with
  | lookup key write => exact h.serve_lookup hl hp
  | add key alloc init write =>
      exact h.serve_add hl hp.1 hp.2 (Bool.eq_false_iff.2 hspoils)
  | remove key alloc => exact h.serve_remove hl key alloc
  | rawRemove key => exact h.serve_rawRemove hl key
  | enumerate etor arg alloc => exact h.serve_enumerate hl etor arg alloc

omit [DecidableEq κ] in
/-- A call that spoils the counts returns as well. -/
theorem Sound.serve_spoiled (hl : ops.Lawful) (h : t.Sound ops) {call : DHashCall κ β σ}
    (hspoils : SpoilsCall ops t call) :
    ∃ r t', execute ops t call = some (r, t') ∧ t'.removedCount ≠ t'.sentinels := by
  cases call with
  | add key alloc init write =>
      obtain ⟨r, t', heq, hcase⟩ := h.add hl key alloc init
      have hsp : addSpoils ops t key alloc init = true := hspoils
      rw [hsp] at hcase
      rcases hcase with ⟨_, _, _, he⟩ | ⟨t₁, _, hadded⟩
      · exact absurd he.symm Bool.false_ne_true
      · cases hadded with
        | spoiled _ hcount =>
            simp only [execute, heq]
            exact ⟨_, _, rfl, hcount⟩
  | lookup _ _ => exact hspoils.elim
  | remove _ _ => exact hspoils.elim
  | rawRemove _ => exact hspoils.elim
  | enumerate _ _ _ => exact hspoils.elim

/-! ### Runs -/

/-- The counts of the table are right. -/
def Counted (t : DHashTable β) : Prop :=
  t.entryCount = t.liveCount ∧ t.removedCount = t.sentinels

/-- The calls in which no `initEntry` fails for an entry that was to be recycled. After
such a failure `removedCount` is one short, and a table may fill up. -/
def InOrder (ops : DHashOps κ β) (t : DHashTable β)
    (e : DHashCall κ β σ × DHashResult β σ) : Prop :=
  ¬SpoilsCall ops t e.1

/-- **What a step does** to a table in order. -/
theorem DSteps.served (hl : ops.Lawful) (h : t.Sound ops) {e : DHashCall κ β σ × DHashResult β σ}
    (hst : DSteps ops t e t') :
    (Counted t' ↔ InOrder ops t e) ∧ (InOrder ops t e → Served ops t e.1 e.2 t') := by
  by_cases hsp : SpoilsCall ops t e.1
  · obtain ⟨r, t'', heq, hne⟩ := h.serve_spoiled hl hsp
    obtain ⟨rfl, rfl⟩ := Prod.mk.inj (Option.some.inj (heq.symm.trans hst.2))
    exact ⟨⟨fun hc => absurd hc.2 hne, fun hn => absurd hsp hn⟩, fun hn => absurd hsp hn⟩
  · obtain ⟨r, t'', heq, hserved⟩ := h.serve hl hst.1 hsp
    obtain ⟨he, rfl⟩ := Prod.mk.inj (Option.some.inj (heq.symm.trans hst.2))
    rw [he] at hserved
    exact ⟨⟨fun _ => hsp, fun _ => ⟨hserved.sound.live, hserved.sound.removed⟩⟩, fun _ => hserved⟩

omit [DecidableEq κ] in
/-- Whatever the call, it returns. -/
theorem Sound.returns (hl : ops.Lawful) (h : t.Sound ops) {call : DHashCall κ β σ}
    (hp : Proper ops call) : (execute ops t call).isSome := by
  classical
  by_cases hsp : SpoilsCall ops t call
  · obtain ⟨r, t', heq, _⟩ := h.serve_spoiled hl hsp
    rw [heq]
    rfl
  · obtain ⟨r, t', heq, _⟩ := h.serve hl hp hsp
    rw [heq]
    rfl

/-- **A table is a finite map.**  A run of calls on a new table, in none of which an
`initEntry` fails for a removed entry that was to be recycled (`InOrder`), has the results
of a run on the empty map; and wherever it has come to, the next call returns.  Source:
`JS_DHashTableInit` (lines 188-229), `SearchTable` (lines 353-426), `ChangeTable`
(lines 428-481), `JS_DHashTableOperate` (lines 483-582), `JS_DHashTableRawRemove`
(lines 584-600) and `JS_DHashTableEnumerate` (lines 602-655) of `js/src/jsdhash.c`. -/
theorem run_maps (hl : ops.Lawful) {capacity : ℕ} {alloc : Bool} (hcap : capacity < 2 ^ 32)
    (hinit : init ops capacity alloc = some t) {es : List (DHashCall κ β σ × DHashResult β σ)}
    (hrun : Run (Guarded (InOrder ops) (DSteps ops)) t es t') :
    (∃ m, Run (MapSteps ops) (fun _ => none) es m ∧ Represents ops t' m) ∧
      ∀ call : DHashCall κ β σ, Proper ops call → (execute ops t' call).isSome := by
  obtain ⟨hs, hnone⟩ := init_sound capacity alloc hcap hinit
  have hm : Represents ops t fun _ => none :=
    fun k b => ⟨fun e => (by cases e), fun hb => absurd hb.2 (hnone b)⟩
  generalize (fun _ => none : κ → Option β) = m at hm ⊢
  clear hinit hnone
  induction hrun generalizing m with
  | nil => exact ⟨⟨m, .nil _, hm⟩, fun call hp => hs.returns hl hp⟩
  | cons hst _ ih =>
      have hserved := (hst.2.served hl hs).2 hst.1
      obtain ⟨m', hstep, hm'⟩ := hserved.map m hm
      obtain ⟨⟨m'', hrest, hm''⟩, hall⟩ := ih hserved.sound m' hm'
      exact ⟨⟨m'', .cons hstep hrest, hm''⟩, hall⟩

omit [DecidableEq κ] in
/-- A table of pairs of numbers, the first of them the key. -/
def pairOps : DHashOps ℕ (ℕ × ℕ) where
  getKey := Prod.fst
  hashKey k := BitVec.ofNat 32 k
  matchEntry b k := b.1 == k
  cleared := (0, 0)

/-- Pairs are told apart by their keys. -/
theorem pairOps_lawful : pairOps.Lawful := fun _ _ => beq_iff_eq

/-- A pair is added, looked up and removed. -/
def pairCalls : List (DHashCall ℕ (ℕ × ℕ) Unit × DHashResult (ℕ × ℕ) Unit) :=
  [(.add 5 true .absent fun _ => (5, 7), .entry (some (0, 0))),
    (.lookup 5 fun b => b, .entry (some (5, 7))), (.remove 5 true, .removed)]

/-- The calls go through on a new table, and none spoils the counts. -/
theorem run_pairCalls : ∃ t t', init pairOps 16 true = some t ∧
    Run (Guarded (InOrder pairOps) (DSteps pairOps)) t pairCalls t' :=
  ⟨_, _, rfl, .cons ⟨Bool.false_ne_true, ⟨fun _ _ => rfl, fun _ _ => rfl⟩, rfl⟩
    (.cons ⟨id, fun _ h => h, rfl⟩ (.cons ⟨id, trivial, rfl⟩ (.nil _)))⟩

/-- A table of pairs is a map of them, and the calls after it go through as well. -/
theorem run_maps_pairs : ∃ t' : DHashTable (ℕ × ℕ),
    (∃ m, Run (MapSteps pairOps) (fun _ => none) pairCalls m ∧ Represents pairOps t' m) ∧
      ∀ call : DHashCall ℕ (ℕ × ℕ) Unit, Proper pairOps call →
        (execute pairOps t' call).isSome := by
  obtain ⟨_, t', hinit, hrun⟩ := run_pairCalls
  exact ⟨t', run_maps pairOps_lawful (by decide) hinit hrun⟩

/-- **When the counts go wrong.**  The runs on a new table in all of whose states the
counts are right are those in which no `initEntry` fails for an entry that was to be
recycled: `removedCount` is decremented before `initEntry` is called, and the entry stays
a removed one.  Source: `JS_DHashTableOperate`, `JS_DHASH_ADD` (lines 527-553 of
`js/src/jsdhash.c`). -/
theorem run_counted_iff (hl : ops.Lawful) {capacity : ℕ} {alloc : Bool} (hcap : capacity < 2 ^ 32)
    (hinit : init ops capacity alloc = some t)
    (es : List (DHashCall κ β σ × DHashResult β σ)) (t' : DHashTable β) :
    Run (Guarded (InOrder ops) (DSteps ops)) t es t' ↔
      Run (Keeping Counted (DSteps ops)) t es t' := by
  classical
  exact run_guarded_iff_keeping_of (fun _ _ _ hs hst => (hst.served hl hs).1)
    (fun _ _ _ hs hst hg => ((hst.served hl hs).2 hg).sound)
    (init_sound capacity alloc hcap hinit).1

/-- Two pairs are added, the second behind the first, and the first is removed. -/
def collidingCalls : List (DHashCall ℕ (ℕ × ℕ) Unit × DHashResult (ℕ × ℕ) Unit) :=
  [(.add 1 true .absent fun _ => (1, 7), .entry (some (0, 0))),
    (.add 22 true .absent fun _ => (22, 7), .entry (some (0, 0))), (.remove 1 true, .removed)]

/-- The first is added again, and its `initEntry` fails. -/
def failingAdd : DHashCall ℕ (ℕ × ℕ) Unit × DHashResult (ℕ × ℕ) Unit :=
  (.add 1 true .fails fun b => b, .entry none)

/-- The run before the failing call, the call, and that it spoils the counts. -/
theorem run_collidingCalls : ∃ t t₁ t', init pairOps 16 true = some t ∧
    Run (DSteps pairOps) t collidingCalls t₁ ∧ DSteps pairOps t₁ failingAdd t' ∧
      addSpoils pairOps t₁ 1 true .fails = true :=
  ⟨_, _, _, rfl, .cons ⟨⟨fun _ _ => rfl, fun _ _ => rfl⟩, rfl⟩
    (.cons ⟨⟨fun _ _ => rfl, fun _ _ => rfl⟩, rfl⟩ (.cons ⟨trivial, rfl⟩ (.nil _))),
    ⟨⟨fun _ h => h, fun _ h => by cases h⟩, rfl⟩, rfl⟩

/-- The entry stays removed and is not counted any more. -/
theorem run_counted_pairs : ∃ t t' : DHashTable (ℕ × ℕ),
    Run (DSteps pairOps) t (collidingCalls ++ [failingAdd]) t' ∧
      ¬Run (Keeping Counted (DSteps pairOps)) t (collidingCalls ++ [failingAdd]) t' := by
  obtain ⟨t, t₁, t', hinit, hrun, hadd, hspoils⟩ := run_collidingCalls
  refine ⟨t, t', hrun.append (.single hadd), fun hcounted => ?_⟩
  have hguarded := (run_counted_iff pairOps_lawful (by decide) hinit _ t').2 hcounted
  refine hguarded.guard_of_append (fun _ _ _ _ h h' => ?_) hrun hspoils
  exact (Prod.mk.inj (Option.some.inj (h.2.symm.trans h'.2))).2

/-! ### Addresses of entries -/

/-- The key has an entry. -/
def Has (ops : DHashOps κ β) (key : κ) (t : DHashTable β) : Prop :=
  ∃ b, t.Stores b ∧ ops.getKey b = key

/-- The entry at an index is the key's. -/
def HasAt (ops : DHashOps κ β) (key : κ) (i : ℕ) (t : DHashTable β) : Prop :=
  ∃ b c, t.cells i = .taken b c ∧ ops.getKey b = key

omit [DecidableEq κ] in
/-- An entry that is kept is where it was. -/
theorem Kept.hasAt (h : Kept ops (Gone ops t') t t') (hkey : Has ops key t')
    (hi : HasAt ops key i t) : HasAt ops key i t' := by
  obtain ⟨b, c, hi, hk⟩ := hi
  obtain ⟨b₁, hs, hk₁⟩ := hkey
  obtain ⟨b', c', hi', hk'⟩ := h.entry i b c hi fun hg => hg b₁ hs (hk₁.trans hk.symm)
  exact ⟨b', c', hi', hk'.trans hk⟩

omit [DecidableEq κ] in
/-- A lookup returns the key's entry. -/
theorem Sound.lookup_eq (hl : ops.Lawful) (h : t.Sound ops) :
    HasAt ops key i t ↔
      DHashTable.lookup ops t key = some (i, t) ∧ (t.entryStore i).isFree = false := by
  obtain ⟨j, heq, hfound⟩ := h.lookup hl key
  constructor
  · rintro ⟨b, c, hi, hk⟩
    rcases hfound with ⟨b', c', hj, hk'⟩ | ⟨_, habsent⟩
    · have hij := h.probed.unique j i b' b c' c hj hi (hk'.trans hk.symm)
      subst hij
      exact ⟨heq, isFree_of_taken hj⟩
    · exact absurd hk (habsent i b c hi)
  · rintro ⟨heq', hbusy⟩
    rw [heq] at heq'
    obtain ⟨rfl, _⟩ := Prod.mk.inj (Option.some.inj heq')
    rcases hfound with ⟨b, c, hj, hk⟩ | ⟨hfree, _⟩
    · exact ⟨b, c, hj, hk⟩
    · rw [DHashEntry.cell_eq_free.1 hfree] at hbusy
      exact absurd hbusy.symm Bool.false_ne_true

omit [DecidableEq κ] in
/-- Over a run, the generation counts how often the store was changed, and while it was not
the key's entry stays. -/
theorem run_generation (hl : ops.Lawful) (h : t.Sound ops) (hgen : t.generation < 2 ^ 32)
    {es : List (DHashCall κ β σ × DHashResult β σ)}
    (hrun : Run (Keeping (Has ops key) (Guarded (InOrder ops) (DSteps ops))) t es t') :
    t'.Sound ops ∧ t'.generation < 2 ^ 32 ∧ ∃ n ≤ es.length,
      t'.generation = uint32 (t.generation + n) ∧
        (n = 0 → HasAt ops key i t → HasAt ops key i t') := by
  classical
  induction hrun with
  | nil t => exact ⟨h, hgen, 0, Nat.le_refl _, (Nat.mod_eq_of_lt hgen).symm, fun _ hi => hi⟩
  | @cons t t₁ t' e es hst _ ih =>
      have hserved := (hst.1.2.served hl h).2 hst.1.1
      rcases hserved.moved with hkept | hinc
      · have hgen₁ : t₁.generation < 2 ^ 32 := by
          rw [hkept.generation]
          exact hgen
        obtain ⟨hs, hlt, n, hn, heq, hstay⟩ := ih hserved.sound hgen₁
        rw [hkept.generation] at heq
        exact ⟨hs, hlt, n, Nat.le_succ_of_le hn, heq, fun h0 hi => hstay h0 (hkept.hasAt hst.2 hi)⟩
      · have hgen₁ : t₁.generation < 2 ^ 32 := by
          rw [hinc]
          exact Nat.mod_lt _ (by decide)
        obtain ⟨hs, hlt, n, hn, heq, _⟩ := ih hserved.sound hgen₁
        refine ⟨hs, hlt, n + 1, Nat.succ_le_succ hn, ?_, fun h0 => absurd h0 (Nat.succ_ne_zero n)⟩
        rw [heq, hinc, increment, uint32, uint32, uint32, Nat.mod_add_mod, Nat.add_assoc,
          Nat.add_comm 1 n]

/-- The runs of a new table, with the generation in its bounds. -/
theorem run_sound_table (hl : ops.Lawful) {capacity : ℕ} {alloc : Bool} (hcap : capacity < 2 ^ 32)
    (hinit : init ops capacity alloc = some t) {es : List (DHashCall κ β σ × DHashResult β σ)}
    (hrun : Run (Guarded (InOrder ops) (DSteps ops)) t es t') :
    t'.Sound ops ∧ t'.generation < 2 ^ 32 := by
  have h₀ : t.Sound ops ∧ t.generation < 2 ^ 32 := by
    refine ⟨(init_sound capacity alloc hcap hinit).1, ?_⟩
    rw [init_generation hinit]
    decide
  refine hrun.invariant (P := fun t => t.Sound ops ∧ t.generation < 2 ^ 32)
    (fun s e s' hs hst => ?_) h₀
  have hserved := (hst.2.served hl hs.1).2 hst.1
  refine ⟨hserved.sound, ?_⟩
  rcases hserved.moved with hkept | hinc
  · rw [hkept.generation]
    exact hs.2
  · rw [hinc]
    exact Nat.mod_lt _ (by decide)

/-- **The address of an entry** that a lookup returned is still the entry's when the
generation of the table is the same, if less than `2 ^ 32` calls were made since, none of
them or of those before spoiling the counts (`InOrder`), and the key had an entry all
along.  Source: `generation` (lines 181-189 of `js/src/jsdhash.h`), incremented in
`ChangeTable` (lines 428-481 of `js/src/jsdhash.c`). -/
theorem run_entry_stays (hl : ops.Lawful) {capacity : ℕ} {alloc : Bool} {t₀ : DHashTable β}
    (hcap : capacity < 2 ^ 32) (hinit : init ops capacity alloc = some t₀)
    {es es' : List (DHashCall κ β σ × DHashResult β σ)}
    (hbefore : Run (Guarded (InOrder ops) (DSteps ops)) t₀ es t)
    (hfound : DHashTable.lookup ops t key = some (i, t)) (hbusy : (t.entryStore i).isFree = false)
    (hrun : Run (Keeping (Has ops key) (Guarded (InOrder ops) (DSteps ops))) t es' t')
    (hlen : es'.length < 2 ^ 32) (hgen : t'.generation = t.generation) :
    DHashTable.lookup ops t' key = some (i, t') ∧ (t'.entryStore i).isFree = false := by
  obtain ⟨hs, hlt⟩ := run_sound_table hl hcap hinit hbefore
  have hi := (hs.lookup_eq hl).2 ⟨hfound, hbusy⟩
  obtain ⟨hs', _, n, hn, heq, hstay⟩ := @run_generation κ β σ ops t t' key i hl hs hlt es' hrun
  have hzero : n = 0 := by
    rw [hgen, uint32] at heq
    omega
  exact (hs'.lookup_eq hl).1 (hstay hzero hi)

/-- Another pair is added after the first, and the address of the first stays. -/
theorem run_twoPairs : ∃ t₀ t t' : DHashTable (ℕ × ℕ), init pairOps 16 true = some t₀ ∧
    Run (Guarded (InOrder pairOps) (DSteps pairOps)) t₀
      [((.add 5 true .absent fun _ => (5, 7) : DHashCall ℕ (ℕ × ℕ) Unit),
        .entry (some (0, 0)))] t ∧
    DHashTable.lookup pairOps t 5 = some (1, t) ∧ (t.entryStore 1).isFree = false ∧
    Run (Keeping (Has pairOps 5) (Guarded (InOrder pairOps) (DSteps pairOps))) t
      [((.add 6 true .absent fun _ => (6, 8) : DHashCall ℕ (ℕ × ℕ) Unit),
        .entry (some (0, 0)))] t' ∧ t'.generation = t.generation :=
  ⟨_, _, _, rfl, .cons ⟨Bool.false_ne_true, ⟨fun _ _ => rfl, fun _ _ => rfl⟩, rfl⟩ (.nil _),
    rfl, rfl, .cons ⟨⟨Bool.false_ne_true, ⟨fun _ _ => rfl, fun _ _ => rfl⟩, rfl⟩,
      ⟨(5, 7), ⟨1, false, rfl⟩, rfl⟩⟩ (.nil _), rfl⟩

/-- The first pair is found at its old address, the table having served another key. -/
theorem run_entry_stays_pairs : ∃ t' : DHashTable (ℕ × ℕ),
    DHashTable.lookup pairOps t' 5 = some (1, t') ∧ (t'.entryStore 1).isFree = false := by
  obtain ⟨_, _, t', hinit, hbefore, hfound, hbusy, hrun, hgen⟩ := run_twoPairs
  exact ⟨t', run_entry_stays pairOps_lawful (by decide) hinit hbefore hfound hbusy hrun
    (by decide) hgen⟩

end DHashTable

end ProntoScript
