import Mathlib.Algebra.Order.Ring.Rat
import Mathlib.Data.Rat.Floor

/-!
# The numbers of the engine

The engine computes with binary floating-point numbers. The model keeps their shape — finite
values, the two infinities, the not-a-number value — and replaces rounding by exact rational
arithmetic: a finite number is a rational. Numbers that reach the engine from outside are
`JsNumber`s, so the finiteness checks of the source stay visible; what passes such a check is
stored as a rational, so a stored value cannot be infinite.
-/

namespace IdleEngine

/-- A number as callers pass it. -/
inductive JsNumber
  | fin (value : ℚ)
  | posInf
  | negInf
  | nan
  deriving DecidableEq, Repr

namespace JsNumber

/-- `Number.isFinite`, with the finite value. -/
def finite? : JsNumber → Option ℚ
  | fin value => some value
  | _ => none

/-- The comparison `a <= b`: false as soon as one side is not a number. -/
def le : JsNumber → JsNumber → Bool
  | nan, _ => false
  | _, nan => false
  | negInf, _ => true
  | _, posInf => true
  | fin a, fin b => decide (a ≤ b)
  | _, _ => false

/-- The comparison `a < b`. -/
def lt (a b : JsNumber) : Bool := le a b && !le b a

end JsNumber

end IdleEngine
