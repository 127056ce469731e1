/-
# Ints as doubles

The conversion `(jsdouble) i` of an int that a `jsval` can hold: exact, for it has 31
bits and the significand 53.  The two zeros of the doubles are one number.
-/

import Mathlib.Algebra.Group.Int.Defs
import Mathlib.Algebra.Group.Nat.Defs
import ProntoScript.Engine.Value

namespace ProntoScript

/-- `(jsdouble) i` by its bits: the sign, the exponent of the leading bit, and what
follows that bit. -/
def intToDouble (i : ℤ) : UInt64 :=
  if i = 0 then 0
  else
    let e := i.natAbs.log2
    let sign := if i < 0 then 2 ^ 63 else 0
    UInt64.ofNat (sign + (1023 + e) * 2 ^ 52 + (i.natAbs * 2 ^ (52 - e) - 2 ^ 52))

/-- Minus zero. -/
def negZero : UInt64 := 0x8000000000000000

example : intToDouble 1 = 0x3FF0000000000000 ∧ intToDouble (-2) = 0xC000000000000000 ∧
    intToDouble 80 = 0x4054000000000000 ∧ doubleToInt (intToDouble (-65535)) = -65535 := by
  decide

end ProntoScript
