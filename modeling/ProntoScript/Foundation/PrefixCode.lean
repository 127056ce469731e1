/-
# Prefix codes

A code writes each symbol as a word over an alphabet.  Where no word is the beginning
of another, a text is given by the concatenation of its words (`flatMap_inj`).  Where one
symbol is written as one letter that no other word has, reading the concatenation up to
that letter is reading the text up to that symbol (`takeWhile_flatMap`).
-/

import Mathlib.Data.List.Basic

namespace PrefixCode

variable {α β : Type*}

/-- On the symbols of `P`, no word is empty, and a word says where it ends. -/
structure IsPrefixCode (P : α → Prop) (code : α → List β) : Prop where
  ne_nil : ∀ a, P a → code a ≠ []
  symbol : ∀ {a b : α} {x y : List β}, P a → P b → code a ++ x = code b ++ y → a = b

variable {P : α → Prop} {code : α → List β} {l m : List α}

/-- **Two texts with the same words are the same text.** -/
theorem flatMap_inj (h : IsPrefixCode P code) (hl : ∀ a ∈ l, P a) (hm : ∀ a ∈ m, P a)
    (heq : l.flatMap code = m.flatMap code) : l = m := by
  induction l generalizing m with
  | nil =>
      cases m with
      | nil => rfl
      | cons b m =>
          rw [List.flatMap_nil, List.flatMap_cons] at heq
          exact absurd (List.append_eq_nil_iff.1 heq.symm).1 (h.ne_nil b (hm b (by simp)))
  | cons a l ih =>
      cases m with
      | nil =>
          rw [List.flatMap_nil, List.flatMap_cons] at heq
          exact absurd (List.append_eq_nil_iff.1 heq).1 (h.ne_nil a (hl a (by simp)))
      | cons b m =>
          rw [List.flatMap_cons, List.flatMap_cons] at heq
          obtain rfl : a = b := h.symbol (hl a (by simp)) (hm b (by simp)) heq
          rw [ih (fun c hc => hl c (by simp [hc])) (fun c hc => hm c (by simp [hc]))
            (List.append_cancel_left heq)]

/-- The letters up to the first terminator are the words of the symbols up to the one
symbol it stands for. -/
theorem takeWhile_flatMap [DecidableEq α] [DecidableEq β] {a₀ : α} {b₀ : β} (hend : code a₀ = [b₀])
    (hne : ∀ a ∈ l, a ≠ a₀ → ∀ b ∈ code a, b ≠ b₀) :
    (l.flatMap code).takeWhile (· != b₀) = (l.takeWhile (· != a₀)).flatMap code := by
  induction l with
  | nil => rfl
  | cons a l ih =>
      have ih := ih fun c hc => hne c (by simp [hc])
      rw [List.flatMap_cons]
      by_cases ha : a = a₀
      · rw [ha, hend, List.cons_append, List.takeWhile_cons_of_neg (by simp),
          List.takeWhile_cons_of_neg (by simp), List.flatMap_nil]
      · rw [List.takeWhile_append_of_pos (by simpa using hne a (by simp) ha), ih,
          List.takeWhile_cons_of_pos (by simpa using ha), List.flatMap_cons]

end PrefixCode
