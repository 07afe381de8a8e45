import DocQuery.Decimal.Numeral
import DocQuery.Decimal.Layout
import DocQuery.Word

/-!
# Numbers

A number is an integer between `-2 ^ 63` and `2 ^ 64 - 1`, or a finite binary64 number. The two
kinds stay apart: `1` is an integer and `1.0` is not. An integral numeral outside the range of
integers is a binary64 number, and so is minus zero.

Numerals of the strict grammar are read in machine arithmetic, which may miss the nearest
binary64 number; those of the lenient grammar are rounded to the nearest one.
-/

namespace DocQuery

inductive Number where
  | integer (value : Int)
  | float (value : Binary64)
deriving DecidableEq

namespace Number

/-- The integers that are numbers of the integer kind. -/
def isInteger (value : Int) : Bool :=
  Word.leastInt64 ≤ value && value ≤ Word.greatestNat64

/-- Reads a numeral of the strict grammar, unless it is too large. -/
def ofStrict? (text : List Char) : Option Number := do
  let numeral ← Numeral.strict? text
  let magnitude := numeral.decimal.significand
  let value : Int := if numeral.negative then -magnitude else magnitude
  if numeral.isIntegral && isInteger value && !(numeral.negative && magnitude == 0) then
    return .integer value
  else
    return .float (← numeral.scaled?)

/-- Reads a numeral of the lenient grammar, unless it is too large. Minus zero without a
point is the integer zero. -/
def ofLenient? (text : List Char) : Option Number :=
  match (Numeral.integer? text).filter isInteger with
  | some value => some (.integer value)
  | none => do
      let numeral ← Numeral.lenient? text
      return .float (← numeral.nearest?)

/-- The text of an integer: a minus if need be, and decimal digits. -/
def integerText (value : Int) : List Char :=
  if value < 0 then '-' :: Nat.toDigits 10 value.natAbs else Nat.toDigits 10 value.natAbs

def chars : Number → List Char
  | .integer value => integerText value
  | .float value => value.text

def text (number : Number) : String :=
  String.ofList number.chars

end Number

end DocQuery
