import Flatsheet.Decimal.Shortest

/-!
The binary floating-point number nearest to a decimal. Of two that are equally near, it is the one
with an even mantissa.
-/

namespace Flatsheet.Decimal

/-- The whole number nearest to a quotient, an even one if two are equally near. -/
def roundQuotient (numerator denominator : Nat) : Nat :=
  let below := numerator / denominator
  let remainder := numerator % denominator
  if 2 * remainder < denominator ∨ (2 * remainder = denominator ∧ below % 2 = 0) then below
  else below + 1

/-- The exponent of the first binary digit of a quotient that is not zero. -/
def binaryMagnitude (numerator denominator : Nat) : Int :=
  let guess : Int := (numerator.log2 : Int) - denominator.log2
  if denominator * Nat.pow 2 guess.toNat ≤ numerator * Nat.pow 2 (-guess).toNat then guess
  else guess - 1

/-- The exponent of the last binary digit of the smallest numbers. -/
def leastExponent : Int := -1074

/-- The bits of infinity; those of a finite number that is not negative are fewer. -/
def infinityBits : Nat := 0x7ff0000000000000

/-- The bits of the number nearest to a quotient that is not zero. -/
def nearestBits (numerator denominator : Nat) : Nat :=
  let exponent := max (binaryMagnitude numerator denominator - 52) leastExponent
  let mantissa := roundQuotient (numerator * Nat.pow 2 (-exponent).toNat)
    (denominator * Nat.pow 2 exponent.toNat)
  min infinityBits ((exponent - leastExponent).toNat * 0x10000000000000 + mantissa)

/-- The decimal exponents beyond which a number is infinite, and below which it is zero. -/
def largestMagnitude : Int := 310

def smallestMagnitude : Int := -330

/-- The number nearest to a decimal, which is infinite if it is too large. -/
def toFloat (decimal : Decimal) : Float :=
  let magnitude := (Text.ofNat decimal.digits).length + decimal.exponent
  if decimal.digits = 0 ∨ magnitude < smallestMagnitude then 0.0
  else
    let bits :=
      if largestMagnitude < magnitude then infinityBits
      else nearestBits (decimal.digits * Nat.pow 10 decimal.exponent.toNat)
        (Nat.pow 10 (-decimal.exponent).toNat)
    Float.ofBits bits.toUInt64

end Flatsheet.Decimal
