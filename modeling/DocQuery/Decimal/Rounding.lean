import DocQuery.Decimal.Binary64

/-!
# Rounding a decimal to the nearest binary64 number

A decimal `significand * 10 ^ exponent` goes to the nearest magnitude, and to the one with the
even number when it lies half way between two. A decimal that rounds beyond the largest finite
magnitude has no binary64 number.
-/

namespace DocQuery

/-- The natural number nearest to `numerator / denominator`; a half goes to the even
neighbour. -/
def divRoundEven (numerator denominator : Nat) : Nat :=
  let quotient := numerator / denominator
  let twice := 2 * (numerator % denominator)
  if twice < denominator then quotient
  else if denominator < twice then quotient + 1
  else quotient + quotient % 2

/-- The number of decimal digits that write a natural number. -/
def digitCount (n : Nat) : Nat :=
  (Nat.toDigits 10 n).length

namespace Binary64

/-- The number of the magnitude nearest to `numerator / denominator` units. Magnitudes have
fifty-three significant bits, so the quotient is cut there; a carry into the next power of two
is the next number. -/
def nearestMagnitude (numerator denominator : Nat) : Nat :=
  let scale := Nat.log2 (numerator / denominator) - 52
  scale * binade + divRoundEven numerator (denominator * Nat.pow 2 scale)

/-- The number with this magnitude, if it is finite. -/
def ofMagnitude? (negative : Bool) (magnitude : Nat) : Option Binary64 :=
  if finite : magnitude < finiteMagnitudes then some ⟨negative, magnitude, finite⟩ else none

end Binary64

structure Decimal where
  significand : Nat
  exponent : Int
deriving DecidableEq

namespace Decimal

/-- The value as a fraction of natural numbers, in units of `2 ^ (-1074)`. -/
def fraction (decimal : Decimal) : Nat × Nat :=
  (decimal.significand * Nat.pow 10 decimal.exponent.toNat * unitsPerOne,
    Nat.pow 10 (-decimal.exponent).toNat)

/-- The nearest binary64 number, if it is finite. Decimals of `10 ^ 310` and more are too
large, and those below `10 ^ (-330)` round to zero, whatever their digits. -/
def nearest? (negative : Bool) (decimal : Decimal) : Option Binary64 :=
  let size := digitCount decimal.significand + decimal.exponent
  if decimal.significand = 0 || size < -330 then
    some (Binary64.zero negative)
  else if 310 < size then
    none
  else
    Binary64.ofMagnitude? negative
      (Binary64.nearestMagnitude decimal.fraction.1 decimal.fraction.2)

end Decimal

end DocQuery
