/-!
# Double-precision numbers as multiples of the least one

Taken as numbers, the bit patterns of the non-negative doubles stand in the order
of the doubles.  Every finite one is a whole multiple of the least double above
zero.  Patterns and multiples are natural numbers here, so nothing is lost in any
step.
-/

namespace Scriptlet.Number

/-- The pattern after the last finite one. -/
def infinity : Nat := 0x7FF0000000000000

/-- The leading bit of a significand; a pattern holds only the bits below it. -/
def leadingBit : Nat := 0x10000000000000

def signBit : Nat := 0x8000000000000000

/-- The least double above zero is two to the power of minus `depth`. -/
def depth : Nat := 1074

/-- How many places the significand of a pattern stands above the least double. -/
def scale (pattern : Nat) : Nat := pattern / leadingBit - 1

def significand (pattern : Nat) : Nat := pattern - scale pattern * leadingBit

def units (pattern : Nat) : Nat := significand pattern * Nat.pow 2 (scale pattern)

/-- The whole number nearest to a quotient; of two equally near ones the even one. -/
def roundDiv (numerator divisor : Nat) : Nat :=
  let quotient := numerator / divisor
  let rest := numerator % divisor
  if 2 * rest < divisor then quotient
  else if divisor < 2 * rest then quotient + 1
  else quotient + quotient % 2

/-- The pattern of the double nearest to a fraction; infinity when it is too large. -/
def nearest (numerator divisor : Nat) : Nat :=
  let scaled := numerator * Nat.pow 2 depth
  let shift := (scaled / divisor).log2 - 52
  min (shift * leadingBit + roundDiv scaled (divisor * Nat.pow 2 shift)) infinity

theorem nearest_le_infinity (numerator divisor : Nat) :
    nearest numerator divisor ≤ infinity :=
  Nat.min_le_right _ _

end Scriptlet.Number
