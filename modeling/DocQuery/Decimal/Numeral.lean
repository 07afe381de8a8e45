import DocQuery.Decimal.Scaling
import DocQuery.Word

/-!
# Numerals

The written form of a number: a sign, digits, digits after a point and a power of ten. Two
grammars share the parts. The strict one is that of JSON: no plus sign, no superfluous leading
zero, and digits on both sides of a point. The lenient one admits a plus sign, leading zeros
and a point with digits on one side only.

A numeral denotes an exact decimal. Where it is read in machine arithmetic, it stands for a
decimal whose significand has at most sixty-four bits.
-/

namespace DocQuery

/-- The parts of a written number. A part that was not written is `none`. -/
structure Numeral where
  negative : Bool
  whole : List Char
  fraction : Option (List Char)
  exponent : Option Int
deriving DecidableEq

namespace Numeral

/-- A text that consists of digits only, at least one, as a number. -/
def digits? (text : List Char) : Option Nat :=
  if text.isEmpty then none
  else if text.all Char.isDigit then some (Nat.ofDigitChars 10 text 0)
  else none

/-- An optional sign of either kind. The result says whether it was a minus. -/
def sign : List Char → Bool × List Char
  | '-' :: rest => (true, rest)
  | '+' :: rest => (false, rest)
  | text => (false, text)

/-- An integer with an optional sign. -/
def integer? (text : List Char) : Option Int :=
  (digits? (sign text).2).map fun magnitude =>
    if (sign text).1 then -(magnitude : Int) else magnitude

/-- The power of ten that ends a numeral: nothing, or `e` and an integer. -/
def exponent? : List Char → Option (Option Int)
  | [] => some none
  | 'e' :: rest => (integer? rest).map some
  | 'E' :: rest => (integer? rest).map some
  | _ :: _ => none

/-- Reads the digits, the point and the power of ten. -/
def unsigned? (negative : Bool) (text : List Char) : Option Numeral :=
  let whole := text.takeWhile Char.isDigit
  match text.dropWhile Char.isDigit with
  | '.' :: rest =>
      (exponent? (rest.dropWhile Char.isDigit)).map fun exponent =>
        ⟨negative, whole, some (rest.takeWhile Char.isDigit), exponent⟩
  | rest => (exponent? rest).map fun exponent => ⟨negative, whole, none, exponent⟩

/-- Whether the digits before the point have no superfluous zero and a point is followed by
digits. -/
def isStrict (numeral : Numeral) : Bool :=
  !numeral.whole.isEmpty
    && (numeral.whole.length == 1 || numeral.whole.head? != some '0')
    && numeral.fraction != some []

/-- Whether there is a digit before or after the point. -/
def isLenient (numeral : Numeral) : Bool :=
  !numeral.whole.isEmpty || !(numeral.fraction.getD []).isEmpty

/-- Reads a numeral of the strict grammar, the whole text. -/
def strict? : List Char → Option Numeral
  | '-' :: rest => (unsigned? true rest).filter isStrict
  | text => (unsigned? false text).filter isStrict

/-- Reads a numeral of the lenient grammar, the whole text. -/
def lenient? (text : List Char) : Option Numeral :=
  (unsigned? (sign text).1 (sign text).2).filter isLenient

/-- Whether there is neither a point nor a power of ten. -/
def isIntegral (numeral : Numeral) : Bool :=
  numeral.fraction.isNone && numeral.exponent.isNone

def decimal (numeral : Numeral) : Decimal :=
  let fraction := numeral.fraction.getD []
  ⟨Nat.ofDigitChars 10 (numeral.whole ++ fraction) 0,
    numeral.exponent.getD 0 - fraction.length⟩

/-- The nearest binary64 number, if it is finite. -/
def nearest? (numeral : Numeral) : Option Binary64 :=
  numeral.decimal.nearest? numeral.negative

/-- The number that digits write behind those of `start`, and how many of them are left over.
Digits are taken from the left as long as the number has sixty-four bits. -/
def fitting (start : Nat) : List Char → Nat × Nat
  | [] => (start, 0)
  | c :: rest =>
      let longer := Nat.ofDigitChars 10 [c] start
      if longer ≤ Word.greatestNat64 then fitting longer rest else (start, rest.length + 1)

/-- The decimal whose significand has sixty-four bits. A digit left over before the point is a
factor of ten; those left over behind it are dropped. -/
def shortened (numeral : Numeral) : Decimal :=
  let fraction := numeral.fraction.getD []
  let (whole, left) := fitting 0 numeral.whole
  let (significand, dropped) := fitting whole fraction
  ⟨significand, numeral.exponent.getD 0 + left - (fraction.length - dropped : Nat)⟩

/-- The binary64 number that machine arithmetic gives, if it is finite. -/
def scaled? (numeral : Numeral) : Option Binary64 :=
  numeral.shortened.scaled? numeral.negative

end Numeral

end DocQuery
