import DocQuery.Decimal.Rounding

/-!
# Scaling a decimal in binary64 arithmetic

A decimal may be computed in place of being rounded once: the significand and the power of ten
are rounded to binary64 numbers, and their product or quotient is rounded again. What comes out
is near the decimal but need not be the nearest number. The powers up to `10 ^ 308` are finite;
a decimal with a smaller exponent than `-308` is divided twice.
-/

namespace DocQuery

namespace Binary64

def ofNat (n : Nat) : Nat :=
  nearestMagnitude (n * unitsPerOne) 1

/-- The magnitude nearest to the product of two magnitudes. -/
def product (left right : Nat) : Nat :=
  nearestMagnitude (unitsOf left * unitsOf right) unitsPerOne

/-- The magnitude nearest to the quotient of two magnitudes. -/
def quotient (left right : Nat) : Nat :=
  nearestMagnitude (unitsOf left * unitsPerOne) (unitsOf right)

def powerOfTen (exponent : Nat) : Nat :=
  ofNat (Nat.pow 10 exponent)

/-- The greatest exponent of a power of ten that is finite. -/
def greatestPower : Nat := 308

end Binary64

namespace Decimal

open Binary64 (product quotient powerOfTen greatestPower)

/-- The magnitude that dividing by powers of ten gives. -/
def divided (significand : Nat) (places : Nat) : Nat :=
  let start := Binary64.ofNat significand
  if places ≤ greatestPower then
    quotient start (powerOfTen places)
  else
    quotient (quotient start (powerOfTen greatestPower)) (powerOfTen (places - greatestPower))

/-- The binary64 number that scaling the significand gives, if it is finite. The significand
has sixty-four bits, so that two divisions by the greatest power leave nothing of it. -/
def scaled? (negative : Bool) (decimal : Decimal) : Option Binary64 :=
  if decimal.significand = 0 || decimal.exponent < -(2 * greatestPower) then
    some (Binary64.zero negative)
  else if decimal.exponent < 0 then
    Binary64.ofMagnitude? negative
      (divided decimal.significand (-decimal.exponent).toNat)
  else if greatestPower < decimal.exponent then
    none
  else
    Binary64.ofMagnitude? negative
      (product (Binary64.ofNat decimal.significand) (powerOfTen decimal.exponent.toNat))

end Decimal

end DocQuery
