import DocQuery.Decimal.Rounding

/-!
# The shortest decimal that reads back

Of the decimals that round to a given magnitude, `shortest` takes one with the fewest digits;
of those the nearest, and of two equally near ones the even one. For a given number of digits
the only candidates are the two neighbours of the magnitude on that decimal grid: if any point
of the grid rounds to the magnitude, so does one of these. Seventeen digits always suffice.
-/

namespace DocQuery

namespace Binary64

/-- The exponent of the leading decimal digit of a positive magnitude given in units. -/
def leadingExponent (units : Nat) : Int :=
  (digitCount (units * Nat.pow 10 400 / unitsPerOne) : Int) - 401

/-- Whether a decimal rounds to the magnitude with this number. -/
def readsBack (magnitude : Nat) (decimal : Decimal) : Bool :=
  match decimal.nearest? false with
  | some value => value.magnitude == magnitude
  | none => false

/-- The decimal on the grid `10 ^ exponent` that rounds to the magnitude and is nearest to
it, if there is one. -/
def onGrid? (magnitude : Nat) (exponent : Int) : Option Decimal :=
  let numerator := unitsOf magnitude * Nat.pow 10 (-exponent).toNat
  let denominator := unitsPerOne * Nat.pow 10 exponent.toNat
  let below : Decimal := ⟨numerator / denominator, exponent⟩
  let above : Decimal := ⟨numerator / denominator + 1, exponent⟩
  let twice := 2 * (numerator % denominator)
  let nearerBelow := twice < denominator
    || (twice == denominator && below.significand % 2 == 0)
  if readsBack magnitude below && (nearerBelow || !readsBack magnitude above) then some below
  else if readsBack magnitude above then some above
  else none

/-- The magnitude written out in full as a decimal. -/
def exact (magnitude : Nat) : Decimal :=
  ⟨unitsOf magnitude * Nat.pow 5 1074, -1074⟩

/-- The shortest decimal that rounds to the magnitude. -/
def shortest (magnitude : Nat) : Decimal :=
  let leading := leadingExponent (unitsOf magnitude)
  ((List.range 17).findSome? fun (extra : Nat) => onGrid? magnitude (leading - extra)).getD
    (exact magnitude)

end Binary64

end DocQuery
