import DocQuery.Decimal.Shortest

/-!
# The text of a binary64 number

The digits are the shortest that read back. A leading digit between `10 ^ (-5)` and `10 ^ 15` is
written positionally, with at least one digit on both sides of the point; other numbers have
one digit before the point, no point if that is the only digit, and a power of ten whose sign
is always written.
-/

namespace DocQuery

namespace Binary64

/-- The least and the first excluded exponent of a leading digit written positionally. -/
def positional : Int × Int := (-5, 16)

/-- Digits written positionally, where `leading` is the exponent of the first of them. -/
def positionalText (digits : List Char) (leading : Int) : List Char :=
  if leading < 0 then
    '0' :: '.' :: List.replicate (-leading - 1).toNat '0' ++ digits
  else
    let places := leading.toNat + 1
    let whole := digits.take places ++ List.replicate (places - digits.length) '0'
    let fraction := digits.drop places
    whole ++ '.' :: (if fraction.isEmpty then ['0'] else fraction)

/-- Digits with the point after the first of them, and a power of ten. -/
def scientificText (digits : List Char) (leading : Int) : List Char :=
  let mantissa :=
    match digits with
    | first :: next :: rest => first :: '.' :: next :: rest
    | short => short
  let sign := if leading < 0 then '-' else '+'
  mantissa ++ 'e' :: sign :: Nat.toDigits 10 leading.natAbs

/-- The text of a decimal magnitude. Zeros at the end of the significand are not digits of
it. -/
def decimalText (decimal : Decimal) : List Char :=
  let all := Nat.toDigits 10 decimal.significand
  let digits := (all.reverse.dropWhile (· == '0')).reverse
  let leading := decimal.exponent + all.length - 1
  if positional.1 ≤ leading && leading < positional.2 then positionalText digits leading
  else scientificText digits leading

def text (value : Binary64) : List Char :=
  let magnitude :=
    if value.magnitude = 0 then ['0', '.', '0'] else decimalText (shortest value.magnitude)
  if value.negative then '-' :: magnitude else magnitude

end Binary64

end DocQuery
