import DocQuery.Proofs.Decimal.Rounding
import DocQuery.Proofs.Text

/-!
# Numbers read back from their texts

The lenient grammar reads every text of a number as this number. Which digits are written before
the point and which zeros are filled in changes the numeral that is read, not the value that it
denotes, so that the nearest binary64 number is the one that was written.
-/

namespace DocQuery

namespace Numeral

theorem digits?_decimal (n : Nat) : digits? (Nat.toDigits 10 n) = some n := by
  have nonempty : (Nat.toDigits 10 n).isEmpty = false := by
    simp [Nat.toDigits_ne_nil]
  have areDigits : (Nat.toDigits 10 n).all Char.isDigit = true :=
    List.all_eq_true.mpr fun c => isDigit_of_mem_decimal
  rw [digits?, nonempty, areDigits, Nat.ofDigitChars_ten_toDigits]
  rfl

theorem sign_of_isUnsigned {text : List Char} (unsigned : IsUnsigned text) :
    sign text = (false, text) := by
  obtain ⟨first, others, rfl, digit, _⟩ := unsigned
  unfold sign
  split
  · next isMinus =>
      rw [(List.cons.inj isMinus).1] at digit
      cases digit
  · next isPlus =>
      rw [(List.cons.inj isPlus).1] at digit
      cases digit
  · rfl

theorem integer?_of_sign {text : List Char} {value : Int}
    (split : sign text = (decide (value < 0), Nat.toDigits 10 value.natAbs)) :
    integer? text = some value := by
  simp only [integer?, split, digits?_decimal, Option.bind_eq_bind, Option.bind_some,
    Option.pure_def, Option.map_some, decide_eq_true_eq, Option.some.injEq]
  by_cases negative : value < 0
  · rw [if_pos negative]
    omega
  · rw [if_neg negative]
    omega

theorem integer?_signed (power : Int) :
    integer? ((if power < 0 then '-' else '+') :: Nat.toDigits 10 power.natAbs) = some power := by
  apply integer?_of_sign
  by_cases negative : power < 0
  · rw [if_pos negative, decide_eq_true negative, sign]
  · rw [if_neg negative, decide_eq_false negative, sign]

/-- The text of a power of ten, whose sign is always written. -/
def powerText : Option Int → List Char
  | none => []
  | some power => 'e' :: (if power < 0 then '-' else '+') :: Nat.toDigits 10 power.natAbs

theorem exponent?_powerText (exponent : Option Int) :
    exponent? (powerText exponent) = some exponent := by
  cases exponent with
  | none =>
      rfl
  | some power =>
      rw [powerText, exponent?, integer?_signed]
      rfl

/-- The text of a numeral without its sign. -/
def spelling (numeral : Numeral) : List Char :=
  match numeral.fraction with
  | none => numeral.whole ++ powerText numeral.exponent
  | some fraction => numeral.whole ++ '.' :: (fraction ++ powerText numeral.exponent)

theorem powerText_stops (exponent : Option Int) :
    ∀ c ∈ (powerText exponent).head?, c.isDigit = false := by
  cases exponent with
  | none =>
      simp [powerText]
  | some power =>
      intro c isLetter
      rw [← Option.some.inj isLetter]
      rfl

/-- A numeral is read from its own text. -/
theorem unsigned?_spelling {numeral : Numeral}
    (wholeDigits : ∀ c ∈ numeral.whole, c.isDigit = true)
    (fractionDigits : ∀ c ∈ numeral.fraction.getD [], c.isDigit = true) :
    unsigned? numeral.negative numeral.spelling = some numeral := by
  obtain ⟨negative, whole, fraction, exponent⟩ := numeral
  have stops := powerText_stops exponent
  cases fraction with
  | none =>
      have noPoint : ∀ rest, powerText exponent ≠ '.' :: rest := by
        cases exponent <;> simp [powerText]
      rw [spelling, unsigned?, Text.takeWhile_append_of_stops wholeDigits stops,
        Text.dropWhile_append_of_stops wholeDigits stops]
      split
      · next rest point =>
          exact absurd point (noPoint rest)
      · rw [exponent?_powerText]
        rfl
  | some fraction =>
      have inFraction : ∀ c ∈ fraction, c.isDigit = true := fractionDigits
      have point : ∀ c ∈ ('.' :: (fraction ++ powerText exponent)).head?, c.isDigit = false := by
        intro c isPoint
        rw [← Option.some.inj isPoint]
        rfl
      rw [spelling, unsigned?, Text.takeWhile_append_of_stops wholeDigits point,
        Text.dropWhile_append_of_stops wholeDigits point]
      simp only [Text.takeWhile_append_of_stops inFraction stops,
        Text.dropWhile_append_of_stops inFraction stops, exponent?_powerText, Option.map_some]

theorem decimal_point (negative : Bool) (whole fraction : List Char) :
    decimal ⟨negative, whole, some fraction, none⟩ =
      ⟨Nat.ofDigitChars 10 (whole ++ fraction) 0, -(fraction.length : Int)⟩ := by
  simp [decimal]

/-- The numeral has this text and denotes the digits with a point behind the first of them, times
a power of ten. It may have the point elsewhere, with zeros filled in. -/
structure Writes (numeral : Numeral) (text digits : List Char) (leading : Int) : Prop where
  text_eq : numeral.spelling = text
  whole_digits : ∀ c ∈ numeral.whole, c.isDigit = true
  fraction_digits : ∀ c ∈ numeral.fraction.getD [], c.isDigit = true
  isLenient : numeral.isLenient = true
  not_isIntegral : numeral.isIntegral = false
  decimal_eq : ∃ zeros : Nat, numeral.decimal =
    ⟨Nat.ofDigitChars 10 digits 0 * 10 ^ zeros, leading + 1 - digits.length - zeros⟩

end Numeral

namespace Binary64

section Layout

variable {digits : List Char}

theorem isDigit_of_mem_zeros {count : Nat} {c : Char} (member : c ∈ List.replicate count '0') :
    c.isDigit = true := by
  rw [List.eq_of_mem_replicate member]
  rfl

/-- A point in front of the first digit, with zeros between the two. -/
theorem writes_zerosBefore (negative : Bool) (areDigits : ∀ c ∈ digits, c.isDigit = true)
    {leading : Int} (small : leading < 0) :
    Numeral.Writes
      ⟨negative, ['0'], some (List.replicate (-leading - 1).toNat '0' ++ digits), none⟩
      (positionalText digits leading) digits leading where
  text_eq := by
    simp [positionalText, Numeral.spelling, Numeral.powerText, small]
  whole_digits := by
    simp
  fraction_digits := by
    intro c member
    rcases List.mem_append.mp member with isZero | inDigits
    · exact isDigit_of_mem_zeros isZero
    · exact areDigits c inDigits
  isLenient := rfl
  not_isIntegral := rfl
  decimal_eq := by
    have value : Nat.ofDigitChars 10
        (['0'] ++ (List.replicate (-leading - 1).toNat '0' ++ digits)) 0 =
          Nat.ofDigitChars 10 digits 0 * 10 ^ 0 := by
      rw [Nat.ofDigitChars_append, Nat.ofDigitChars_append, Nat.ofDigitChars_replicate_zero,
        Nat.pow_zero, Nat.mul_one]
      rfl
    refine ⟨0, ?_⟩
    rw [Numeral.decimal_point, value, List.length_append, List.length_replicate]
    congr 1
    omega

/-- A point behind the last digit, with zeros between the two and one behind the point. -/
theorem writes_zerosBehind (negative : Bool) (areDigits : ∀ c ∈ digits, c.isDigit = true)
    {leading : Int} (large : ¬ leading < 0)
    (short : digits.length ≤ leading.toNat + 1) :
    Numeral.Writes
      ⟨negative, digits ++ List.replicate (leading.toNat + 1 - digits.length) '0', some ['0'], none⟩
      (positionalText digits leading) digits leading where
  text_eq := by
    simp [positionalText, Numeral.spelling, Numeral.powerText, large,
      List.take_of_length_le short, List.drop_of_length_le short]
  whole_digits := by
    intro c member
    rcases List.mem_append.mp member with inDigits | isZero
    · exact areDigits c inDigits
    · exact isDigit_of_mem_zeros isZero
  fraction_digits := by
    simp
  isLenient := by
    simp [Numeral.isLenient]
  not_isIntegral := rfl
  decimal_eq := by
    have value : Nat.ofDigitChars 10
        (digits ++ List.replicate (leading.toNat + 1 - digits.length) '0' ++ ['0']) 0 =
          Nat.ofDigitChars 10 digits 0 * 10 ^ (leading.toNat + 1 - digits.length + 1) := by
      rw [List.append_assoc, ← List.replicate_succ', Nat.ofDigitChars_append,
        Nat.ofDigitChars_replicate_zero, Nat.mul_comm]
    refine ⟨leading.toNat + 1 - digits.length + 1, ?_⟩
    rw [Numeral.decimal_point, value]
    congr 1
    simp only [List.length_singleton]
    omega

/-- A point between two of the digits. -/
theorem writes_pointWithin (negative : Bool) (areDigits : ∀ c ∈ digits, c.isDigit = true)
    {leading : Int} (large : ¬ leading < 0) (long : leading.toNat + 1 < digits.length) :
    Numeral.Writes
      ⟨negative, digits.take (leading.toNat + 1), some (digits.drop (leading.toNat + 1)), none⟩
      (positionalText digits leading) digits leading where
  text_eq := by
    have fraction : digits.drop (leading.toNat + 1) ≠ [] := by
      simp [long]
    have noZeros : leading.toNat + 1 - digits.length = 0 := by omega
    simp [positionalText, Numeral.spelling, Numeral.powerText, large, long, noZeros]
  whole_digits := fun c member => areDigits c (List.mem_of_mem_take member)
  fraction_digits := fun c member => areDigits c (List.mem_of_mem_drop member)
  isLenient := by
    have nonempty : digits.take (leading.toNat + 1) ≠ [] := by
      intro empty
      have lengths := congrArg List.length empty
      rw [List.length_take, List.length_nil] at lengths
      omega
    simp [Numeral.isLenient, nonempty]
  not_isIntegral := rfl
  decimal_eq := by
    refine ⟨0, ?_⟩
    rw [Numeral.decimal_point, List.take_append_drop, List.length_drop, Nat.pow_zero, Nat.mul_one]
    congr 1
    omega

theorem exists_writes_positionalText (negative : Bool)
    (areDigits : ∀ c ∈ digits, c.isDigit = true) (leading : Int) :
    ∃ numeral : Numeral, numeral.negative = negative ∧
      numeral.Writes (positionalText digits leading) digits leading := by
  by_cases small : leading < 0
  · exact ⟨_, rfl, writes_zerosBefore negative areDigits small⟩
  · by_cases short : digits.length ≤ leading.toNat + 1
    · exact ⟨_, rfl, writes_zerosBehind negative areDigits small short⟩
    · exact ⟨_, rfl, writes_pointWithin negative areDigits small (Nat.not_le.mp short)⟩

theorem exists_writes_scientificText (negative : Bool) (nonempty : digits ≠ [])
    (areDigits : ∀ c ∈ digits, c.isDigit = true) (leading : Int) :
    ∃ numeral : Numeral, numeral.negative = negative ∧
      numeral.Writes (scientificText digits leading) digits leading := by
  match digits with
  | [first] =>
      refine ⟨⟨negative, [first], none, some leading⟩, rfl, rfl, areDigits, by simp, rfl, rfl,
        0, ?_⟩
      simp [Numeral.decimal]
  | first :: next :: rest =>
      refine ⟨⟨negative, [first], some (next :: rest), some leading⟩, rfl, rfl, ?_, ?_, rfl, rfl,
        0, ?_⟩
      · intro c member
        exact areDigits c (List.mem_singleton.mp member ▸ List.mem_cons_self)
      · exact fun c member => areDigits c (List.mem_cons_of_mem first member)
      · simp [Numeral.decimal]

end Layout

/-- The significant digits of a number and the zeros behind them. -/
theorem exists_significant_append_zeros (n : Nat) :
    ∃ zeros : Nat, Nat.toDigits 10 n =
      ((Nat.toDigits 10 n).reverse.dropWhile (· == '0')).reverse ++ List.replicate zeros '0' := by
  refine ⟨((Nat.toDigits 10 n).reverse.takeWhile (· == '0')).length, ?_⟩
  have onlyZeros : (Nat.toDigits 10 n).reverse.takeWhile (· == '0') =
      List.replicate ((Nat.toDigits 10 n).reverse.takeWhile (· == '0')).length '0' := by
    apply List.eq_replicate_of_mem
    intro c member
    have isZero := List.mem_takeWhile_imp member
    exact beq_iff_eq.mp isZero
  have parts := congrArg List.reverse
    (List.takeWhile_append_dropWhile (p := (· == '0')) (l := (Nat.toDigits 10 n).reverse))
  rw [List.reverse_append, List.reverse_reverse, onlyZeros, List.reverse_replicate] at parts
  exact parts.symm

theorem exists_writes_decimalText {decimal : Decimal} (positive : decimal.significand ≠ 0)
    (negative : Bool) :
    ∃ numeral : Numeral, numeral.negative = negative ∧
      numeral.Writes (decimalText decimal)
        ((Nat.toDigits 10 decimal.significand).reverse.dropWhile (· == '0')).reverse
        (decimal.exponent + (Nat.toDigits 10 decimal.significand).length - 1) := by
  have areDigits : ∀ c ∈ ((Nat.toDigits 10 decimal.significand).reverse.dropWhile
      (· == '0')).reverse, c.isDigit = true := fun c => isDigit_of_mem_significant
  rw [decimalText]
  split
  · exact exists_writes_positionalText negative areDigits _
  · exact exists_writes_scientificText negative (significant_ne_nil positive) areDigits _

/-- The text of a decimal is read as a numeral with a point or a power of ten that rounds to the
number that the decimal rounds to. -/
theorem unsigned?_decimalText {decimal : Decimal} (positive : decimal.significand ≠ 0)
    (negative : Bool) :
    ∃ numeral, Numeral.unsigned? negative (decimalText decimal) = some numeral ∧
      numeral.isLenient = true ∧ numeral.isIntegral = false ∧
        numeral.nearest? = decimal.nearest? negative := by
  have written := exists_writes_decimalText positive negative
  obtain ⟨zeros, spelled⟩ := exists_significant_append_zeros decimal.significand
  generalize ((Nat.toDigits 10 decimal.significand).reverse.dropWhile (· == '0')).reverse =
    digits at spelled written
  have size := congrArg List.length spelled
  rw [List.length_append, List.length_replicate] at size
  have value : Nat.ofDigitChars 10 digits 0 * 10 ^ zeros = decimal.significand := by
    rw [← Nat.ofDigitChars_ten_toDigits (n := decimal.significand), spelled,
      Nat.ofDigitChars_append, Nat.ofDigitChars_replicate_zero, Nat.mul_comm]
  rcases written with ⟨numeral, sign, writes⟩
  rcases writes.decimal_eq with ⟨filled, denoted⟩
  refine ⟨numeral, ?_, writes.isLenient, writes.not_isIntegral, ?_⟩
  · rw [← sign, ← writes.text_eq]
    exact Numeral.unsigned?_spelling writes.whole_digits writes.fraction_digits
  · have exponent : decimal.exponent + (Nat.toDigits 10 decimal.significand).length - 1 + 1 -
        digits.length = decimal.exponent + zeros := by
      omega
    calc numeral.nearest?
        = Decimal.nearest? negative ⟨Nat.ofDigitChars 10 digits 0, decimal.exponent + zeros⟩ := by
          rw [Numeral.nearest?, denoted, sign, Decimal.nearest?_shift, exponent]
      _ = decimal.nearest? negative := by
          rw [← Decimal.nearest?_shift negative _ _ zeros, value, Int.add_sub_cancel]

/-- The text of a number without its sign. -/
def magnitudeText (magnitude : Nat) : List Char :=
  if magnitude = 0 then ['0', '.', '0'] else decimalText (shortest magnitude)

/-- The text of a magnitude is read, with either sign, as the number that has both. -/
theorem unsigned?_magnitudeText (value : Binary64) :
    ∃ numeral, Numeral.unsigned? value.negative (magnitudeText value.magnitude) = some numeral ∧
      numeral.isLenient = true ∧ numeral.isIntegral = false ∧
        numeral.nearest? = some value := by
  unfold magnitudeText
  by_cases isZero : value.magnitude = 0
  · rw [if_pos isZero]
    refine ⟨⟨value.negative, ['0'], some ['0'], none⟩, rfl, rfl, rfl, ?_⟩
    have nearest : Numeral.nearest? ⟨value.negative, ['0'], some ['0'], none⟩ =
        some (Binary64.zero value.negative) := by
      rw [Numeral.nearest?, Numeral.decimal_point]
      exact Decimal.nearest?_zero value.negative _
    rw [nearest]
    cases value
    cases isZero
    rfl
  · rw [if_neg isZero, ← nearest?_shortest isZero]
    exact unsigned?_decimalText (significand_shortest isZero) value.negative

theorem sign_text (value : Binary64) :
    Numeral.sign value.text = (value.negative, magnitudeText value.magnitude) := by
  cases negative : value.negative with
  | true =>
      simp only [text, negative, if_true, Numeral.sign, magnitudeText]
  | false =>
      simp only [text, negative, Bool.false_eq_true, if_false, magnitudeText]
      exact Numeral.sign_of_isUnsigned (isUnsigned_magnitude value.magnitude)

/-- A binary64 number is read back from its text. -/
theorem lenient?_text (value : Binary64) :
    ∃ numeral, Numeral.lenient? value.text = some numeral ∧ numeral.nearest? = some value := by
  rcases unsigned?_magnitudeText value with ⟨numeral, read, lenient, _, nearest⟩
  refine ⟨numeral, ?_, nearest⟩
  rw [Numeral.lenient?, sign_text, read, Option.filter_some, if_pos lenient]

/-- The text of a binary64 number is not that of an integer, not even if the number is one. -/
theorem integer?_text (value : Binary64) : Numeral.integer? value.text = none := by
  rcases unsigned?_magnitudeText value with ⟨numeral, read, _, notIntegral, _⟩
  rw [Numeral.integer?, sign_text, Option.map_eq_none_iff]
  unfold Numeral.digits?
  split
  · rfl
  · split
    · next onlyDigits =>
        rw [Numeral.unsigned?_digits _ (List.all_eq_true.mp onlyDigits)] at read
        rw [← Option.some.inj read] at notIntegral
        cases notIntegral
    · rfl

end Binary64

namespace Number

theorem integer?_integerText (value : Int) : Numeral.integer? (integerText value) = some value := by
  apply Numeral.integer?_of_sign
  rw [integerText]
  by_cases negative : value < 0
  · rw [if_pos negative, decide_eq_true negative, Numeral.sign]
  · rw [if_neg negative, decide_eq_false negative,
      Numeral.sign_of_isUnsigned (isUnsigned_decimal value.natAbs)]

/-- The numbers that there are: an integer fits one of the two machine types. -/
inductive Fits : Number → Prop
  | integer {value : Int} :
      isInteger value = true →
      Fits (.integer value)
  | float (value : Binary64) :
      Fits (.float value)

/-- A number is read back from its text, as a number of the same kind. -/
theorem ofLenient?_chars {number : Number} (fits : number.Fits) :
    ofLenient? number.chars = some number := by
  cases fits with
  | @integer value small =>
      rw [chars, ofLenient?, integer?_integerText, Option.filter_some, if_pos small]
  | float value =>
      rcases value.lenient?_text with ⟨numeral, read, nearest⟩
      rw [chars, ofLenient?, value.integer?_text, Option.filter_none, read]
      dsimp only
      rw [Option.bind_eq_bind, Option.bind_some, nearest]
      rfl

end Number

end DocQuery
