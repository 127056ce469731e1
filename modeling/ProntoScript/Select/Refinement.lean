/-
# The event list and the map it is meant to be

`ps_RemoveSelect` unlinks an event correctly when it is the first of the list:
there `prev` is `NULL`, and `ps_Events` and the `prev` of the second event are
all there is to fix.  For any other event the predecessor's `next` has to be
fixed, and `ev->prev = ev->next` stores to the event being removed instead, so
the released event stays reachable.  A call that meets its descriptor at the
head of the list only, or not at all, turns a list that represents the map `m`
into one that represents the map after the call (`SelectCall.represents_of_atHead`);
any other call leaves a released event in the walk
(`SelectCall.not_represents_of_not_atHead`).
-/

import ProntoScript.Select.Heap

namespace ProntoScript

open LinkedList Transition

namespace SelectHeap

/-! ### What one call of `ps_RemoveSelect` never touches -/

@[simp] theorem setPrev_next (h : SelectHeap) (a b : ℕ) (q : Option ℕ) :
    ((h.setPrev a q).mem b).next = (h.mem b).next := by
  by_cases hb : b = a <;> simp [setPrev, hb]

@[simp] theorem setPrev_data (h : SelectHeap) (a b : ℕ) (q : Option ℕ) :
    ((h.setPrev a q).mem b).data = (h.mem b).data := by
  by_cases hb : b = a <;> simp [setPrev, hb]

/-- The cell whose `prev` is set. -/
theorem setPrev_mem_self (h : SelectHeap) (a : ℕ) (q : Option ℕ) :
    (h.setPrev a q).mem a = { h.mem a with prev := q } := by simp [setPrev]

/-- The other cells. -/
theorem setPrev_mem_ne (h : SelectHeap) {a b : ℕ} (q : Option ℕ) (hb : b ≠ a) :
    (h.setPrev a q).mem b = h.mem b := by simp [setPrev, hb]

@[simp] theorem setPrev_allocated (h : SelectHeap) (a : ℕ) (q : Option ℕ) :
    (h.setPrev a q).allocated = h.allocated := rfl

@[simp] theorem setPrev_psEvents (h : SelectHeap) (a : ℕ) (q : Option ℕ) :
    (h.setPrev a q).psEvents = h.psEvents := rfl

/-- `unlink` stores to `prev` pointers only. -/
theorem unlink_next (h : SelectHeap) (ev a : ℕ) : ((h.unlink ev).mem a).next = (h.mem a).next := by
  unfold unlink free unlinkFirst unlinkNext unlinkPrev
  split_ifs <;> split <;> simp

/-- `unlink` leaves the descriptors and the data of all events. -/
theorem unlink_data (h : SelectHeap) (ev a : ℕ) : ((h.unlink ev).mem a).data = (h.mem a).data := by
  unfold unlink free unlinkFirst unlinkNext unlinkPrev
  split_ifs <;> split <;> simp

/-- `unlink` releases the event and no other. -/
theorem unlink_allocated (h : SelectHeap) (ev : ℕ) :
    (h.unlink ev).allocated = Function.update h.allocated ev false := by
  unfold unlink free unlinkFirst unlinkNext unlinkPrev
  split_ifs <;> split <;> simp

/-- `unlink` moves `ps_Events` only off the event it releases. -/
theorem unlink_psEvents (h : SelectHeap) (ev : ℕ) :
    (h.unlink ev).psEvents = if h.psEvents = some ev then (h.mem ev).next else h.psEvents := by
  have h₁ : (h.unlinkPrev ev).psEvents = h.psEvents := by unfold unlinkPrev; split_ifs <;> rfl
  have h₂ : ((h.unlinkPrev ev).unlinkNext ev).psEvents = h.psEvents := by
    unfold unlinkNext; split <;> simp [h₁]
  have h₃ : (((h.unlinkPrev ev).unlinkNext ev).mem ev).next = (h.mem ev).next := by
    unfold unlinkNext unlinkPrev; split <;> split_ifs <;> simp
  unfold unlink free unlinkFirst
  rw [h₂, h₃]
  split_ifs with he
  · rfl
  · exact h₂

/-- The loop of `ps_RemoveSelect` is a round and the rest of the loop. -/
theorem removeLoop_succ (fd : ℤ) (n : ℕ) (ev : ℕ) (h : SelectHeap) :
    removeLoop fd (n + 1) (some ev) h =
      removeLoop fd n ((h.round fd ev).mem ev).next (h.round fd ev) := rfl

/-- A round leaves every `next`: it sets `prev` and `ps_Events` only. -/
theorem round_next (fd : ℤ) (h : SelectHeap) (ev a : ℕ) :
    ((h.round fd ev).mem a).next = (h.mem a).next := by
  unfold round; split
  · exact h.unlink_next ev a
  · rfl

/-- A round leaves what the cells hold. -/
theorem round_data (fd : ℤ) (h : SelectHeap) (ev a : ℕ) :
    ((h.round fd ev).mem a).data = (h.mem a).data := by
  unfold round; split
  · exact h.unlink_data ev a
  · rfl

/-- A released event stays released in a round. -/
theorem round_allocated {fd : ℤ} {h : SelectHeap} {ev a : ℕ} (ha : h.allocated a = false) :
    (h.round fd ev).allocated a = false := by
  unfold round; split
  · rw [unlink_allocated]
    by_cases he : a = ev <;> simp [he, ha]
  · exact ha

/-- `ps_Events` stays where it is while the first event has another descriptor. -/
theorem round_psEvents {fd : ℤ} {h : SelectHeap} {ev a : ℕ} (ha : h.psEvents = some a)
    (hne : (h.mem a).data.1 ≠ fd) : (h.round fd ev).psEvents = some a := by
  unfold round; split
  · rename_i hev
    rw [unlink_psEvents, if_neg, ha]
    rintro he
    rw [ha] at he
    exact hne (Option.some.inj he ▸ hev)
  · exact ha

/-! ### What the whole loop keeps -/

/-- The loop leaves every `next`, so that nothing but the head is ever unlinked. -/
theorem removeLoop_next {fd : ℤ} {n : ℕ} {p : Option ℕ} {h h' : SelectHeap}
    (hr : removeLoop fd n p h = some h') (a : ℕ) : (h'.mem a).next = (h.mem a).next := by
  induction n generalizing p h with
  | zero => cases p <;> simp_all [removeLoop]
  | succ n ih =>
      cases p with
      | none => simp_all [removeLoop]
      | some ev =>
          rw [removeLoop_succ] at hr
          rw [ih hr, round_next]

/-- The loop allocates nothing. -/
theorem removeLoop_allocated {fd : ℤ} {n : ℕ} {p : Option ℕ} {h h' : SelectHeap} {a : ℕ}
    (hr : removeLoop fd n p h = some h') (ha : h.allocated a = false) : h'.allocated a = false := by
  induction n generalizing p h with
  | zero => cases p <;> simp_all [removeLoop]
  | succ n ih =>
      cases p with
      | none => simp_all [removeLoop]
      | some ev =>
          rw [removeLoop_succ] at hr
          exact ih hr (round_allocated ha)

/-- The head stays if it is of another descriptor. -/
theorem removeLoop_psEvents {fd : ℤ} {n : ℕ} {p : Option ℕ} {h h' : SelectHeap} {a : ℕ}
    (hr : removeLoop fd n p h = some h') (ha : h.psEvents = some a)
    (hne : (h.mem a).data.1 ≠ fd) : h'.psEvents = some a := by
  induction n generalizing p h with
  | zero => cases p <;> simp_all [removeLoop]
  | succ n ih =>
      cases p with
      | none => simp_all [removeLoop]
      | some ev =>
          rw [removeLoop_succ] at hr
          exact ih hr (round_psEvents ha hne) (by rw [round_data]; exact hne)

/-- Every event with the descriptor that the walk meets is released. -/
theorem removeLoop_releases {fd : ℤ} {n : ℕ} {p : Option ℕ} {h h' : SelectHeap} {b : ℕ}
    (hr : removeLoop fd n p h = some h') (hb : Reaches h.mem p b)
    (hfd : (h.mem b).data.1 = fd) : h'.allocated b = false := by
  induction n generalizing p h with
  | zero =>
      cases hb <;> simp [removeLoop] at hr
  | succ n ih =>
      cases hb with
      | here =>
          rw [removeLoop_succ] at hr
          refine removeLoop_allocated hr ?_
          rw [round, if_pos hfd, unlink_allocated, Function.update_self]
      | @step a _ hb =>
          rw [removeLoop_succ] at hr
          refine ih hr ?_ (by rw [round_data]; exact hfd)
          rw [round_next]
          exact hb.mono fun c => round_next fd h a c

/-! ### Removing the first event, or none -/

/-- A walk that meets no event with the descriptor leaves the memory as it is. -/
theorem removeLoop_of_absent {fd : ℤ} {h : SelectHeap} {p hd : Option ℕ}
    {l : List (ℕ × (Σ _ : ℤ, PSSelectEvent))} (hl : Chain h.mem p hd l)
    (hfd : ∀ c ∈ l, c.2.1 ≠ fd) {n : ℕ} (hn : l.length ≤ n) : removeLoop fd n hd h = some h := by
  induction l generalizing p hd n with
  | nil =>
      rw [chain_nil] at hl
      subst hl
      cases n <;> rfl
  | cons c l ih =>
      obtain ⟨a, x⟩ := c
      obtain ⟨rfl, hx, -, hl⟩ := hl
      cases n with
      | zero => simp at hn
      | succ n =>
          have hround : h.round fd a = h := by
            rw [round, if_neg]
            rw [hx]
            exact hfd (a, x) (by simp)
          rw [removeLoop_succ, hround]
          exact ih hl (fun c hc => hfd c (by simp [hc])) (by simpa using hn)

/-- For an event with no predecessor `unlink` stores to its successor only. -/
theorem unlink_mem_of_prev {h : SelectHeap} {a : ℕ} (hp : (h.mem a).prev = none) :
    (h.unlink a).mem = (h.unlinkNext a).mem := by
  have h₁ : h.unlinkPrev a = h := by simp [unlinkPrev, hp]
  unfold unlink free unlinkFirst
  rw [h₁]
  split_ifs <;> rfl

/-- Unlinking the first event leaves the chain of the others. -/
theorem unlink_head_chain {h : SelectHeap} {a : ℕ} {x : Σ _ : ℤ, PSSelectEvent}
    {l : List (ℕ × (Σ _ : ℤ, PSSelectEvent))} (hl : Chain h.mem none h.psEvents ((a, x) :: l))
    (hnd : (((a, x) :: l).map Prod.fst).Nodup) :
    Chain (h.unlink a).mem none (h.mem a).next l := by
  obtain ⟨-, -, hprev, hl⟩ := hl
  have hnd' : (l.map Prod.fst).Nodup := (List.nodup_cons.1 (by simpa using hnd)).2
  rw [unlink_mem_of_prev hprev]
  cases hnx : (h.mem a).next with
  | none =>
      rw [hnx] at hl
      cases l with
      | nil => rfl
      | cons c l => exact absurd hl.1 (by simp)
  | some nx =>
      have hmem : (h.unlinkNext a).mem = (h.setPrev nx none).mem := by
        simp only [unlinkNext, hnx, hprev]
      rw [hmem]
      rw [hnx] at hl
      refine hl.relink hnd' (fun b hb => ?_) (fun b _ hne => ?_)
      · rw [← Option.some.inj hb]
        exact h.setPrev_mem_self nx none
      · exact h.setPrev_mem_ne none fun he => hne (by rw [he])

/-! ### One call on a list that represents a map -/

/-- Removing a descriptor found at the head of the list, or not at all, takes its
entry out of the chain and touches no other cell than those of the list. -/
theorem psRemoveSelect_of_head {h : SelectHeap} {fd : ℤ}
    {l : List (ℕ × (Σ _ : ℤ, PSSelectEvent))} (hl : Chain h.mem none h.psEvents l)
    (hnd : (l.map Prod.snd).NodupKeys) (hhd : ∀ c ∈ l, c.2.1 = fd → h.psEvents = some c.1)
    {n : ℕ} (hn : l.length ≤ n) :
    ∃ h' l', h.psRemoveSelect n fd = some h' ∧ Chain h'.mem none h'.psEvents l' ∧
      l'.map Prod.snd = (l.map Prod.snd).kerase fd ∧ l'.Sublist l ∧
      (∀ b ∈ l'.map Prod.fst, h'.allocated b = h.allocated b) ∧
      ∀ b ∉ l.map Prod.fst, h'.mem b = h.mem b ∧ h'.allocated b = h.allocated b := by
  have hndl : (l.map Prod.fst).Nodup := hl.nodup hnd.nodup
  by_cases hmem : ∃ c ∈ l, c.2.1 = fd
  · obtain ⟨c, hc, hcfd⟩ := hmem
    cases l with
    | nil => simp at hc
    | cons d l =>
        obtain ⟨a, x⟩ := d
        have hpe : h.psEvents = some a := hl.1
        have hca : c.1 = a := Option.some.inj ((hhd c hc hcfd).symm.trans hpe)
        have hnot : a ∉ l.map Prod.fst := (List.nodup_cons.1 (by simpa using hndl)).1
        have hcx : c.2 = x := by
          rw [← hl.data_eq (a := c.1) (x := c.2) hc, hca]
          exact hl.2.1
        have hx : x.1 = fd := hcx ▸ hcfd
        have hrest : ∀ c ∈ l, c.2.1 ≠ fd := by
          intro c' hc' hfd
          have hkeys : x.1 ∉ (l.map Prod.snd).keys := by
            rw [List.map_cons, List.nodupKeys_cons] at hnd
            exact hnd.1
          exact hkeys (hx.trans hfd.symm ▸ List.mem_map_of_mem (List.mem_map_of_mem hc'))
        have hun : Chain (h.unlink a).mem none (h.mem a).next l := unlink_head_chain hl hndl
        have hround : h.round fd a = h.unlink a := by rw [round, hl.2.1, if_pos hx]
        have hpe' : (h.unlink a).psEvents = (h.mem a).next := by rw [unlink_psEvents, if_pos hpe]
        obtain ⟨n, rfl⟩ : ∃ k, n = k + 1 := ⟨n - 1, by simp at hn; omega⟩
        refine ⟨h.unlink a, l, ?_, hpe' ▸ hun, ?_, List.sublist_cons_self _ _, ?_, ?_⟩
        · rw [psRemoveSelect, hpe, removeLoop_succ, hround, unlink_next]
          exact removeLoop_of_absent hun hrest (by simpa using hn)
        · rw [List.map_cons, List.kerase_cons_eq hx.symm]
        · intro b hb
          rw [unlink_allocated, Function.update_of_ne]
          rintro rfl
          exact hnot hb
        · intro b hb
          rw [List.map_cons, List.mem_cons, not_or] at hb
          refine ⟨?_, by rw [unlink_allocated, Function.update_of_ne hb.1]⟩
          rw [unlink_mem_of_prev hl.2.2.1, unlinkNext]
          split
          · rename_i nx hnx
            refine h.setPrev_mem_ne _ ?_
            rintro rfl
            rw [hnx] at hun
            cases l with
            | nil => simp at hun
            | cons e l => exact hb.2 (by simp [Option.some.inj hun.1])
          · rfl
  · have habs : ∀ c ∈ l, c.2.1 ≠ fd := fun c hc hfd => hmem ⟨c, hc, hfd⟩
    refine ⟨h, l, removeLoop_of_absent hl habs hn, hl, ?_, List.Sublist.refl l,
      fun _ _ => rfl, fun _ _ => ⟨rfl, rfl⟩⟩
    rw [List.kerase_of_notMem_keys]
    simp only [List.keys, List.mem_map, not_exists, not_and]
    rintro y ⟨c, hc, rfl⟩
    exact habs c hc

/-- Linking a new cell puts it in front of the list. -/
theorem link_chain {h : SelectHeap} {a : ℕ} {x : Σ _ : ℤ, PSSelectEvent}
    {l : List (ℕ × (Σ _ : ℤ, PSSelectEvent))} (hl : Chain h.mem none h.psEvents l)
    (hnd : (l.map Prod.fst).Nodup) (ha : a ∉ l.map Prod.fst) (hx : h.mem a = ⟨x, none, none⟩) :
    Chain (h.link a).mem none (h.link a).psEvents ((a, x) :: l) := by
  cases l with
  | nil =>
      rw [chain_nil] at hl
      simp [link, hl, hx]
  | cons c l =>
      obtain ⟨b, y⟩ := c
      have hpe : h.psEvents = some b := hl.1
      have hab : a ≠ b := fun he => ha (by simp [he])
      have hcell : (h.link a).mem a = ⟨x, none, some b⟩ := by
        simp [link, hpe, setPrev, setNext, hab, hx]
      refine ⟨by simp [link, hpe], by rw [hcell], by rw [hcell], ?_⟩
      rw [hcell, ← hpe]
      refine hl.relink hnd (fun d hd => ?_) (fun d hd hne => ?_)
      · obtain rfl : b = d := Option.some.inj (hpe.symm.trans hd)
        simp [link, hpe, setPrev, setNext, hab.symm]
      · have hdb : d ≠ b := fun he => hne (by rw [hpe, he])
        have hda : d ≠ a := fun he => ha (he ▸ hd)
        simp [link, hpe, setPrev, setNext, hdb, hda]

/-- The other cells are as they were. -/
theorem malloc_mem_ne (h : SelectHeap) {a b : ℕ} (x : Σ _ : ℤ, PSSelectEvent) (hb : b ≠ a) :
    (h.malloc a x).mem b = h.mem b := Function.update_of_ne hb _ _

/-- The other cells are allocated or not, as they were. -/
theorem malloc_allocated_ne (h : SelectHeap) {a b : ℕ} (x : Σ _ : ℤ, PSSelectEvent) (hb : b ≠ a) :
    (h.malloc a x).allocated b = h.allocated b := Function.update_of_ne hb _ _

/-- An address that is not allocated holds no event of the list. -/
theorem not_mem_of_free {h : SelectHeap} {a : ℕ} {l : List (ℕ × (Σ _ : ℤ, PSSelectEvent))}
    (hal : ∀ b ∈ l.map Prod.fst, h.allocated b = true) (ha : h.allocated a = false) :
    a ∉ l.map Prod.fst := fun hm => by
  rw [hal a hm] at ha
  cases ha

/-- Filling in a new event leaves the list. -/
theorem malloc_chain {h : SelectHeap} {a : ℕ} {x : Σ _ : ℤ, PSSelectEvent}
    {l : List (ℕ × (Σ _ : ℤ, PSSelectEvent))} (hl : Chain h.mem none h.psEvents l)
    (ha : a ∉ l.map Prod.fst) : Chain (h.malloc a x).mem none (h.malloc a x).psEvents l :=
  hl.frame fun _ hb => h.malloc_mem_ne x (ne_of_mem_of_not_mem hb ha)

@[simp] theorem link_allocated (h : SelectHeap) (a : ℕ) : (h.link a).allocated = h.allocated := by
  unfold link; split <;> rfl

@[simp] theorem link_psEvents (h : SelectHeap) (a : ℕ) : (h.link a).psEvents = some a := by
  unfold link; split <;> rfl

/-- Linking an event leaves the `next` of the others. -/
theorem link_next_of_ne (h : SelectHeap) {a b : ℕ} (hb : b ≠ a) :
    ((h.link a).mem b).next = (h.mem b).next := by
  unfold link; split
  · simp [setNext, hb]
  · rfl

/-- The new event comes before the old head. -/
theorem link_next_self {h : SelectHeap} {a b : ℕ} (hpe : h.psEvents = some b) :
    ((h.link a).mem a).next = some b := by
  simp [link, hpe, setNext]

/-- More fuel does not change what the loop does. -/
theorem removeLoop_mono {fd : ℤ} {n k : ℕ} {p : Option ℕ} {h h' : SelectHeap}
    (hr : removeLoop fd n p h = some h') (hk : n ≤ k) : removeLoop fd k p h = some h' := by
  induction n generalizing p h k with
  | zero =>
      cases p with
      | none => cases k <;> exact hr
      | some ev => simp [removeLoop] at hr
  | succ n ih =>
      cases p with
      | none => cases k <;> exact hr
      | some ev =>
          obtain ⟨k, rfl⟩ : ∃ j, k = j + 1 := ⟨k - 1, by omega⟩
          rw [removeLoop_succ] at hr ⊢
          exact ih hr (by omega)

/-- The descriptor is found at the head of the list, if at all. -/
def AtHead (h : SelectHeap) (fd : ℤ) : Prop :=
  ∀ a, Reaches h.mem h.psEvents a → (h.mem a).data.1 = fd → h.psEvents = some a

/-- The events of a list that represents a map are not released. -/
theorem Represents.allocated {h : SelectHeap} {m : Registry} (hm : h.Represents m) {a : ℕ}
    (ha : Reaches h.mem h.psEvents a) : h.allocated a = true := by
  obtain ⟨l, hl, -, hal⟩ := hm
  exact hal a (hl.reaches_iff.1 ha)

/-- The empty list is the empty map. -/
theorem start_represents : start.Represents ∅ := ⟨[], rfl, rfl, by simp⟩

/-- The event was not released and the walk from `ps_Events` meets it. -/
def Registered (h : SelectHeap) (ev : ℕ) : Prop :=
  h.allocated ev = true ∧ Reaches h.mem h.psEvents ev

/-- An event of the descriptor with these data is registered. -/
def Has (h : SelectHeap) (fd : ℤ) (ev : PSSelectEvent) : Prop :=
  ∃ a, h.Registered a ∧ (h.mem a).data = ⟨fd, ev⟩

/-- The events registered on a list that represents a map are its entries. -/
theorem Represents.has_iff {h : SelectHeap} {m : Registry} (hm : h.Represents m) {fd : ℤ}
    {ev : PSSelectEvent} : h.Has fd ev ↔ m.lookup fd = some ev := by
  obtain ⟨l, hl, hmap, hal⟩ := hm
  refine Iff.trans ?_ AList.mem_lookup_iff.symm
  rw [← hmap]
  constructor
  · rintro ⟨a, ⟨-, hreach⟩, hdata⟩
    obtain ⟨c, hc, rfl⟩ := List.mem_map.1 (hl.reaches_iff.1 hreach)
    rw [hl.data_eq (a := c.1) (x := c.2) hc] at hdata
    exact hdata ▸ List.mem_map_of_mem hc
  · intro he
    obtain ⟨c, hc, heq⟩ := List.mem_map.1 he
    have hmem : c.1 ∈ l.map Prod.fst := List.mem_map_of_mem hc
    exact ⟨c.1, ⟨hal c.1 hmem, hl.reaches_iff.2 hmem⟩, (hl.data_eq hc).trans heq⟩

end SelectHeap

namespace SelectCall

open SelectHeap

/-- The call finds the descriptor it removes at the head of the list, or nowhere. -/
def FindsHead (h : SelectHeap) : SelectCall → Prop
  | addSelect _ _ _ _ _ _ none => True
  | addSelect fd _ _ _ _ _ (some _) => h.AtHead fd
  | removeSelect fd => h.AtHead fd

/-- The same beside a map. -/
def HitsHead (s : SelectHeap × Registry) (c : SelectCall) : Prop := c.FindsHead s.1

/-- A call that returns does so with more fuel. -/
theorem exec_mono {n k : ℕ} {h h' : SelectHeap} {c : SelectCall} (hr : c.exec n h = some h')
    (hk : n ≤ k) : c.exec k h = some h' := by
  cases c with
  | removeSelect fd => exact removeLoop_mono hr hk
  | addSelect fd mask obj func errfunc timeout event =>
      cases event with
      | none => exact hr
      | some event =>
          simp only [exec, psAddSelect] at hr ⊢
          split at hr
          · cases hr
          · rename_i h₂ hrem
            rw [psRemoveSelect] at hrem
            rw [psRemoveSelect, removeLoop_mono hrem hk]
            exact hr

/-- **A call that hits the head does to the list what it is meant to do to the
map, and returns.** -/
theorem represents_of_hitsHead {h : SelectHeap} {m : Registry} {c : SelectCall}
    (hm : h.Represents m) (hans : c.Answered h) (hhd : c.HitsHead (h, m)) :
    ∃ fuel h', c.exec fuel h = some h' ∧ h'.Represents (c.onMap m) := by
  obtain ⟨l, hl, hlm, hal⟩ := hm
  have hnd : (l.map Prod.snd).NodupKeys := hlm ▸ m.nodupKeys
  have hhead : ∀ fd, h.AtHead fd → ∀ c ∈ l, c.2.1 = fd → h.psEvents = some c.1 := by
    intro fd hfd c hc hcfd
    refine hfd c.1 (hl.reaches_iff.2 (List.mem_map_of_mem hc)) ?_
    rw [hl.data_eq (a := c.1) (x := c.2) hc, hcfd]
  cases c with
  | removeSelect fd =>
      obtain ⟨h', l', hex, hl', hlm', hsub, hal', -⟩ :=
        psRemoveSelect_of_head hl hnd (hhead fd hhd) le_rfl
      refine ⟨_, h', hex, l', hl', by rw [hlm', hlm]; rfl, fun a ha => ?_⟩
      rw [hal' a ha]
      exact hal a ((hsub.map Prod.fst).subset ha)
  | addSelect fd mask obj func errfunc timeout event =>
      cases event with
      | none => exact ⟨0, h, rfl, l, hl, hlm, hal⟩
      | some event =>
          set x : Σ _ : ℤ, PSSelectEvent := ⟨fd, ⟨mask, obj, func, errfunc, addTimeout timeout⟩⟩
          have hfree : event ∉ l.map Prod.fst := not_mem_of_free hal hans
          have hl₁ := malloc_chain (x := x) hl hfree
          obtain ⟨h₂, l₂, hex, hl₂, hlm₂, hsub, hal₂, hout⟩ :=
            psRemoveSelect_of_head hl₁ hnd (hhead fd hhd) le_rfl
          have hfree₂ : event ∉ l₂.map Prod.fst := fun he => hfree ((hsub.map Prod.fst).subset he)
          have hcell : h₂.mem event = ⟨x, none, none⟩ := by
            rw [(hout event hfree).1]
            simp [malloc]
          have hal₁ : ∀ a ∈ l.map Prod.fst, (h.malloc event x).allocated a = true := fun a ha => by
            rw [malloc_allocated_ne _ _ (ne_of_mem_of_not_mem ha hfree)]
            exact hal a ha
          have hnd₂ : (l₂.map Prod.fst).Nodup :=
            (hl.nodup hnd.nodup).sublist (hsub.map Prod.fst)
          refine ⟨l.length, h₂.link event, ?_, (event, x) :: l₂, link_chain hl₂ hnd₂ hfree₂ hcell,
            ?_, fun a ha => ?_⟩
          · simp only [exec, psAddSelect]
            rw [hex]
          · rw [List.map_cons, hlm₂, hlm]
            rfl
          · rw [link_allocated]
            rw [List.map_cons, List.mem_cons] at ha
            rcases ha with rfl | ha
            · rw [(hout _ hfree).2]
              simp [malloc]
            · rw [hal₂ a ha]
              exact hal₁ a ((hsub.map Prod.fst).subset ha)

/-- A descriptor found behind the head leaves its event in the walk, released. -/
theorem psRemoveSelect_of_not_atHead {h h' : SelectHeap} {fd : ℤ} {n : ℕ}
    {l : List (ℕ × (Σ _ : ℤ, PSSelectEvent))} (hl : Chain h.mem none h.psEvents l)
    (hnd : (l.map Prod.snd).NodupKeys) {a : ℕ} (ha : a ∈ l.map Prod.fst)
    (hfd : (h.mem a).data.1 = fd) (hne : h.psEvents ≠ some a)
    (hr : h.psRemoveSelect n fd = some h') :
    h'.psEvents = h.psEvents ∧ (∀ b, (h'.mem b).next = (h.mem b).next) ∧
      h'.allocated a = false := by
  refine ⟨?_, removeLoop_next hr, removeLoop_releases hr (hl.reaches_iff.2 ha) hfd⟩
  cases l with
  | nil => simp at ha
  | cons c l =>
      obtain ⟨b, y⟩ := c
      have hpe : h.psEvents = some b := hl.1
      rw [hpe]
      refine removeLoop_psEvents hr hpe fun hb => hne ?_
      obtain ⟨⟨a', z⟩, hz, rfl⟩ := List.mem_map.1 ha
      have hza : (h.mem a').data = z := hl.data_eq hz
      have hyb : (h.mem b).data = y := hl.2.1
      rcases List.mem_cons.1 hz with he | hz
      · rw [hpe, (Prod.mk.inj he).1]
      · rw [List.map_cons, List.nodupKeys_cons] at hnd
        refine absurd ?_ hnd.1
        rw [← hyb, hb, ← hfd, hza]
        exact List.mem_map_of_mem (List.mem_map_of_mem hz)

/-- **Any other call leaves a released event in the walk**, whatever map the list
is compared with. -/
theorem not_represents_of_not_hitsHead {h h' : SelectHeap} {m m' : Registry} {c : SelectCall}
    {n : ℕ} (hm : h.Represents m) (hans : c.Answered h) (hhd : ¬ c.HitsHead (h, m))
    (hex : c.exec n h = some h') : ¬ h'.Represents m' := by
  obtain ⟨l, hl, hlm, hal⟩ := hm
  have hnd : (l.map Prod.snd).NodupKeys := hlm ▸ m.nodupKeys
  intro hm'
  cases c with
  | removeSelect fd =>
      simp only [HitsHead, FindsHead, AtHead, not_forall] at hhd
      obtain ⟨a, hra, hfd, hne⟩ := hhd
      have ha := hl.reaches_iff.1 hra
      obtain ⟨hpe, hnx, hfalse⟩ := psRemoveSelect_of_not_atHead hl hnd ha hfd hne hex
      have hreach : Reaches h'.mem h'.psEvents a := by
        rw [hpe]
        exact hl.reaches_of_next (fun b _ => hnx b) ha
      rw [hm'.allocated hreach] at hfalse
      cases hfalse
  | addSelect fd mask obj func errfunc timeout event =>
      cases event with
      | none => exact hhd trivial
      | some event =>
          simp only [HitsHead, FindsHead, AtHead, not_forall] at hhd
          obtain ⟨a, hra, hfd, hne⟩ := hhd
          have ha := hl.reaches_iff.1 hra
          simp only [exec, psAddSelect] at hex
          set x : Σ _ : ℤ, PSSelectEvent := ⟨fd, ⟨mask, obj, func, errfunc, addTimeout timeout⟩⟩
          have hfree : event ∉ l.map Prod.fst := not_mem_of_free hal hans
          have hmem₁ : ∀ b ∈ l.map Prod.fst, (h.malloc event x).mem b = h.mem b := fun b hb =>
            malloc_mem_ne _ _ (ne_of_mem_of_not_mem hb hfree)
          split at hex
          · cases hex
          · rename_i h₂ hrem
            obtain rfl := Option.some.inj hex
            obtain ⟨hpe, hnx, hfalse⟩ := psRemoveSelect_of_not_atHead (malloc_chain hl hfree) hnd
              ha (by rw [hmem₁ a ha]; exact hfd) hne hrem
            obtain ⟨b, hb⟩ : ∃ b, h.psEvents = some b := by
              cases hpe : h.psEvents with
              | none => rw [hpe] at hra; cases hra
              | some b => exact ⟨b, rfl⟩
            have hpe₂ : h₂.psEvents = some b := hpe.trans hb
            have hnext : ∀ d ∈ l.map Prod.fst, ((h₂.link event).mem d).next = (h.mem d).next :=
              fun d hd => by rw [link_next_of_ne _ (ne_of_mem_of_not_mem hd hfree), hnx, hmem₁ d hd]
            have hreach : Reaches (h₂.link event).mem (h₂.link event).psEvents a := by
              rw [link_psEvents]
              refine .step ?_
              rw [link_next_self hpe₂, ← hb]
              exact hl.reaches_of_next hnext ha
            have htrue := hm'.allocated hreach
            rw [link_allocated, hfalse] at htrue
            cases htrue

/-- **From a list that represents the map, a call keeps the two together exactly
when it hits the head.** -/
theorem Step.represents_iff {s t : SelectHeap × Registry} {c : SelectCall}
    (hst : Step s c t) (hs : s.1.Represents s.2) : t.1.Represents t.2 ↔ c.HitsHead s := by
  obtain ⟨hans, ⟨n, hex⟩, hmap⟩ := hst
  constructor
  · intro ht
    by_contra hhd
    exact not_represents_of_not_hitsHead hs hans hhd hex ht
  · intro hhd
    obtain ⟨k, h', hex', hrep⟩ := represents_of_hitsHead hs hans hhd
    have he : t.1 = h' := Option.some.inj <|
      (exec_mono hex (le_max_left n k)).symm.trans (exec_mono hex' (le_max_right n k))
    rw [he, hmap]
    exact hrep

/-- A call on the list beside the call on the map. -/
theorem Step.of_exec {h h' : SelectHeap} {m : Registry} {c : SelectCall} (hans : c.Answered h)
    (n : ℕ) (hex : c.exec n h = some h') : Step (h, m) c (h', c.onMap m) :=
  ⟨hans, ⟨n, hex⟩, rfl⟩

/-- A call that finds its descriptor at the head keeps the list the map it is meant to be. -/
theorem represents_of_exec {h h' : SelectHeap} {m : Registry} {c : SelectCall} {n : ℕ}
    (hm : h.Represents m) (hans : c.Answered h) (hhd : c.FindsHead h) (hex : c.exec n h = some h') :
    h'.Represents (c.onMap m) :=
  (Step.of_exec hans n hex).represents_iff hm |>.2 hhd

/-- A call leaves the entries of the descriptors it does not remove. -/
theorem lookup_onMap {m : Registry} {c : SelectCall} {fd : ℤ} (hfd : c.removes ≠ some fd) :
    (c.onMap m).lookup fd = m.lookup fd := by
  cases c with
  | removeSelect n => exact AList.lookup_erase_ne fun he => hfd (congrArg some he.symm)
  | addSelect n mask obj func errfunc timeout event =>
      cases event with
      | none => rfl
      | some event => exact AList.lookup_insert_ne fun he => hfd (congrArg some he.symm)

/-- The map a step carries along is what its call does to the map. -/
theorem run_map {s t : SelectHeap × Registry} {cs : List SelectCall} (h : Run Step s cs t) :
    t.2 = cs.foldl onMap s.2 := by
  induction h with
  | nil => rfl
  | cons hst _ ih => rw [ih, hst.2.2]; rfl

/-- **The event list is the map as long as every removal hits the head.**  Over every run
of calls each of which finds the descriptor it removes at the head of the list or nowhere,
the list represents the map of the calls made so far, and the next such call returns.  The
condition is exact: these are the runs all of whose lists represent their map.  Source:
`ps_AddSelect` (lines 339-381) and `ps_RemoveSelect` (lines 383-404) of
`js/src/ext/psselect.c`. -/
theorem psSelect_represents (cs : List SelectCall) (s : SelectHeap × Registry) :
    (Run (Guarded HitsHead Step) (SelectHeap.start, ∅) cs s →
      s.1.Represents (cs.foldl onMap ∅) ∧
        ∀ c : SelectCall, c.Answered s.1 → c.HitsHead s → ∃ t, Step s c t) ∧
    (Run (Guarded HitsHead Step) (SelectHeap.start, ∅) cs s ↔
      Run (Keeping (fun s => s.1.Represents s.2) Step) (SelectHeap.start, ∅) cs s) := by
  refine ⟨fun hrun => ?_, ?_⟩
  · have hrep : s.1.Represents s.2 := hrun.guarded_invariant (J := fun _ => True)
      (fun _ _ _ _ _ => trivial) (fun _ _ _ _ hs hg hst => (hst.represents_iff hs).2 hg)
      trivial start_represents
    have hmap := run_map hrun.of_guarded
    refine ⟨hmap ▸ hrep, fun c hans hhd => ?_⟩
    obtain ⟨n, h', hex, -⟩ := represents_of_hitsHead hrep hans hhd
    exact ⟨(h', c.onMap s.2), hans, ⟨n, hex⟩, rfl⟩
  · exact run_guarded_iff_keeping (J := fun _ => True) (fun _ _ _ _ _ => trivial)
      (fun _ _ _ _ hs hst => hst.represents_iff hs) trivial start_represents

/-- The run of two registrations and the removal of the later one. -/
theorem psSelect_represents_head :
    ∃ s : SelectHeap × Registry, s.1.Represents s.2 ∧ s.2.keys = [3] := by
  have hrun : ∃ s, Run (Guarded HitsHead Step) (SelectHeap.start, ∅)
      [addSelect 3 1 0 .tcpSocketSelectCallback .tcpSocketSelectErrorCallback (-1) (some 0),
        addSelect 4 1 1 .tcpSocketSelectCallback .tcpSocketSelectErrorCallback (-1) (some 1),
        removeSelect 4] s := by
    refine ⟨_, .cons ⟨?_, .of_exec rfl 3 rfl⟩ (.cons ⟨?_, .of_exec rfl 3 rfl⟩
      (.cons ⟨?_, .of_exec trivial 3 rfl⟩ (.nil _)))⟩
    · rintro a ⟨⟩
    · rintro a (_ | ⟨⟨⟩⟩) -
      rfl
    · rintro a (_ | _ | _ | ⟨⟨⟩⟩) hfd
      · rfl
      · exact absurd hfd (by decide)
  obtain ⟨s, hs⟩ := hrun
  have hmap := run_map hs.of_guarded
  refine ⟨s, ?_, ?_⟩
  · rw [hmap]
    exact ((psSelect_represents _ s).1 hs).1
  · rw [hmap]
    rfl

/-- **Removing an event behind the head leaves it in the list, released.**  With
descriptors 3 and 4 registered in this order, `ps_RemoveSelect(3)` releases the
event of 3 and the walk from `ps_Events` still meets it. -/
theorem psRemoveSelect_leaves_released :
    ∃ s, Run Step (SelectHeap.start, ∅)
        [addSelect 3 1 0 .tcpSocketSelectCallback .tcpSocketSelectErrorCallback (-1) (some 0),
          addSelect 4 1 1 .tcpSocketSelectCallback .tcpSocketSelectErrorCallback (-1) (some 1),
          removeSelect 3] s ∧
      (∃ a, Reaches s.1.mem s.1.psEvents a ∧ s.1.allocated a = false) ∧
      ¬ s.1.Represents s.2 := by
  refine ⟨_, .cons (.of_exec rfl 3 rfl) (.cons (.of_exec rfl 3 rfl)
    (.cons (.of_exec trivial 3 rfl) (.nil _))), ?_, ?_⟩
  · exact ⟨0, .step (.here 0), rfl⟩
  · intro hrep
    have := hrep.allocated (a := 0) (.step (.here 0))
    cases this

end SelectCall
end ProntoScript
