/-
# Values, strings and error reports of the engine

`js/src/jsapi.h`, lines 60-130 (the tags of a `jsval`), `JS_TypeOfValue` in
`js/src/jsapi.c`, and `js/src/ext/ps.msg`.

A `jsval` is modelled by its tag and what the tag says it holds.  `JSVAL_TO_INT`
shifts whatever word it is given; on a value that is not an int the word of an
object, a string or a double is an address, and what comes out of it is an
answer of the outside (`stray`).
-/

import Mathlib.Algebra.Group.Int.Defs
import Mathlib.Algebra.Group.Nat.Defs

namespace ProntoScript

/-- A `JSString`: a sequence of `jschar`. Source: lines 72-75 of `js/src/jsstr.h`. -/
abbrev JSString := List UInt16

/-- A `jsval` by its tag.  A double carries its IEEE 754 bits, a function the
`JSObject *` of its closure. -/
inductive JSVal
  | void
  | null
  | int (i : ℤ)
  | double (bits : UInt64)
  | boolean (b : Bool)
  | string (s : JSString)
  | object (o : ℕ)
  | function (f : ℕ)
deriving DecidableEq, Repr

/-- `JSType`, as far as `JS_TypeOfValue` tells the values above apart. Source: lines 81-91
of `js/src/jspubtd.h`. -/
inductive JSType
  | void
  | object
  | function
  | string
  | number
  | boolean
deriving DecidableEq, Repr

/-- `JS_TypeOfValue`. Source: lines 580-637 of `js/src/jsapi.c`. -/
def typeOfValue : JSVal → JSType
  | .void => .void
  | .null => .object
  | .int _ => .number
  | .double _ => .number
  | .boolean _ => .boolean
  | .string _ => .string
  | .object _ => .object
  | .function _ => .function

/-- `JSVAL_IS_FUNCTION`. -/
def JSVal.isFunction : JSVal → Bool
  | .function _ => true
  | _ => false

/-- `JSVAL_TO_INT(v)`, which is `(jsint)(v) >> 1` whatever the tag: `JSVAL_VOID` is the
int `-2^30`, a boolean `b` is the word `8 b + 6`. Source: `JSVAL_TO_INT`, line 103 of
`js/src/jsapi.h`. -/
def jsvalToInt (stray : ℤ) : JSVal → ℤ
  | .int i => i
  | .void => -(2 ^ 30)
  | .null => 0
  | .boolean b => if b then 7 else 3
  | _ => stray

/-- `(jsint) d` for a double given by its bits: the part before the point.  Where
C leaves the conversion open (NaN, infinities, values beyond an `int`) the model
takes the `INT_MIN` of the x86-64 instruction. -/
def doubleToInt (bits : UInt64) : ℤ :=
  let e := bits.toNat / 2 ^ 52 % 2 ^ 11
  let m := 2 ^ 52 + bits.toNat % 2 ^ 52
  let a : ℕ := if e < 1023 then 0 else if e < 1075 then m / 2 ^ (1075 - e) else m * 2 ^ (e - 1075)
  let i : ℤ := if bits.toNat < 2 ^ 63 then a else -(a : ℤ)
  if e = 2 ^ 11 - 1 ∨ i < -(2 ^ 31) ∨ 2 ^ 31 ≤ i then -(2 ^ 31) else i

/-- A C conversion to a 16-bit unsigned integer (`JSUint16`). -/
def toUint16 (i : ℤ) : ℕ := (i % 2 ^ 16).toNat

/-- A C conversion to a 32-bit unsigned integer and back to `int`, which is what
a `JSUint32 timeout` goes through on its way to `ps_AddSelect`. -/
def throughUint32 (i : ℤ) : ℤ := i.bmod (2 ^ 32)

/-- The messages of `ps.msg` that the sockets report. -/
inductive PSMsg
  | notEnoughArguments
  | argumentNotInt
  | argumentNotString
  | failed
  | socketError
deriving DecidableEq, Repr

/-- The format strings of `ps.msg`; `{0}` stands for the argument of the report. -/
def PSMsg.format : PSMsg → String
  | .notEnoughArguments => "not enough arguments specified"
  | .argumentNotInt => "argument is not an integer"
  | .argumentNotString => "argument is not a string"
  | .failed => "failed: \x7b0\x7d"
  | .socketError => "socket error"

/-- A call of `JS_ReportErrorNumber`: the message and its argument, if it takes one. -/
structure ErrorReport where
  msg : PSMsg
  arg : Option String
deriving DecidableEq, Repr

/-- How a native function returns: `JS_TRUE` with `*rval`, or `JS_FALSE` with the
error it reported, if it reported one. -/
abbrev Native := Except (Option ErrorReport) JSVal

/-- `JS_ReportErrorNumber` followed by `return JS_FALSE`. Source: lines 4484-4494 of
`js/src/jsapi.c`. -/
def reportError (msg : PSMsg) (arg : Option String) : Native := .error (some ⟨msg, arg⟩)

end ProntoScript
