/-
# Computations that record what they use

A computation that may fail carries along the list of the operations it performed,
in order.  Dropping the list gives the computation without the record, step by step
(`result_bind`), and a property of every operation performed is one of the first part
together with one of the rest, if the first part returns (`all_bind`).
-/

import Mathlib.Data.List.Basic

/-- A result or an error, with the operations performed on the way. -/
structure Recording (U ε α : Type*) where
  uses : List U
  result : Except ε α

namespace Recording

universe u

variable {U ε : Type*} {α β : Type u}

/-- Return a value, performing nothing. -/
def ret (a : α) : Recording U ε α := ⟨[], .ok a⟩

/-- Fail, performing nothing. -/
def fail (e : ε) : Recording U ε α := ⟨[], .error e⟩

/-- Perform one operation, with its value. -/
def use (u : U) (a : α) : Recording U ε α := ⟨[u], .ok a⟩

/-- One after the other; an error ends the computation. -/
def andThen (x : Recording U ε α) (f : α → Recording U ε β) : Recording U ε β :=
  match x.result with
  | .error e => ⟨x.uses, .error e⟩
  | .ok a => ⟨x.uses ++ (f a).uses, (f a).result⟩

instance : Monad (Recording U ε) where
  pure := ret
  bind := andThen

/-- Every operation performed has the property. -/
def All (p : U → Prop) (x : Recording U ε α) : Prop := ∀ u ∈ x.uses, p u

variable {p : U → Prop} {u : U} {a : α} {e : ε} {x : Recording U ε α} {f : α → Recording U ε β}

@[simp] theorem result_pure : (pure a : Recording U ε α).result = .ok a := rfl

@[simp] theorem result_fail : (fail e : Recording U ε α).result = .error e := rfl

@[simp] theorem result_use : (use u a : Recording U ε α).result = .ok a := rfl

/-- **Dropping the record** commutes with sequencing. -/
@[simp] theorem result_bind : (x >>= f).result = x.result.bind fun a => (f a).result := by
  show (x.andThen f).result = _
  unfold andThen
  cases x.result <;> rfl

@[simp] theorem all_pure : (pure a : Recording U ε α).All p ↔ True :=
  iff_true_intro fun _ hu => by cases hu

@[simp] theorem all_fail : (fail e : Recording U ε α).All p ↔ True :=
  iff_true_intro fun _ hu => by cases hu

@[simp] theorem all_use : (use u a : Recording U ε α).All p ↔ p u := by
  simp [All, use]

/-- **Everything performed**: in the first part, and in the rest if it is reached. -/
@[simp] theorem all_bind :
    (x >>= f).All p ↔ x.All p ∧ ∀ a, x.result = .ok a → (f a).All p := by
  show (x.andThen f).All p ↔ _
  unfold andThen All
  cases x.result with
  | error e => simp
  | ok a => simp [or_imp, forall_and]

end Recording
