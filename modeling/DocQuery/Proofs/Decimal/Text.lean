import DocQuery.Condition.Lexer
import Mathlib.Data.List.TakeWhile

/-!
# Texts of numbers

The text of an integer is read back as this integer. The text of a binary64 number begins with a
digit, behind a minus if the number is negative, and goes on with characters of numerals; only a
power of ten may bring another minus.
-/

namespace DocQuery

section Digits

theorem isDigit_of_mem_decimal {n : Nat} {c : Char} (member : c ∈ Nat.toDigits 10 n) :
    c.isDigit = true :=
  Nat.isDigit_of_mem_toDigits (by decide) (by decide) member

/-- The digits that are left when zeros at the end are dropped. -/
theorem isDigit_of_mem_significant {n : Nat} {c : Char}
    (member : c ∈ ((Nat.toDigits 10 n).reverse.dropWhile (· == '0')).reverse) :
    c.isDigit = true := by
  have inReverse : c ∈ (Nat.toDigits 10 n).reverse :=
    (List.dropWhile_suffix _).subset (List.mem_reverse.mp member)
  exact isDigit_of_mem_decimal (List.mem_reverse.mp inReverse)

/-- The digits of a number but zero begin with another one than zero. -/
theorem head?_decimal {n : Nat} (positive : n ≠ 0) : (Nat.toDigits 10 n).head? ≠ some '0' := by
  induction n using Nat.strongRecOn with
  | ind n inductionHypothesis =>
      rw [Nat.toDigits_eq_if (by decide)]
      by_cases single : n < 10
      · rw [if_pos single]
        intro isZero
        have digit : n.digitChar = '0' := by
          simpa using isZero
        exact positive (Nat.digitChar_eq_zero.mp digit)
      · have shorterFirst := inductionHypothesis (n / 10) (by omega) (by omega)
        rw [if_neg single, List.head?_append]
        cases shorter : Nat.toDigits 10 (n / 10) with
        | nil =>
            exact absurd shorter Nat.toDigits_ne_nil
        | cons first others =>
            rwa [shorter] at shorterFirst

theorem significant_ne_nil {n : Nat} (positive : n ≠ 0) :
    ((Nat.toDigits 10 n).reverse.dropWhile (· == '0')).reverse ≠ [] := by
  intro empty
  have onlyZeros := List.dropWhile_eq_nil_iff.mp (List.reverse_eq_nil_iff.mp empty)
  have first := head?_decimal positive
  cases spelled : Nat.toDigits 10 n with
  | nil =>
      exact Nat.toDigits_ne_nil spelled
  | cons digit others =>
      have isZero := onlyZeros digit (by simp [spelled])
      rw [spelled, beq_iff_eq.mp isZero] at first
      exact first rfl

end Digits

namespace Numeral

theorem unsigned?_digits (negative : Bool) {digits : List Char}
    (areDigits : ∀ c ∈ digits, c.isDigit = true) :
    unsigned? negative digits = some ⟨negative, digits, none, none⟩ := by
  have kept : digits.takeWhile Char.isDigit = digits :=
    List.takeWhile_eq_self_iff.mpr areDigits
  have nothing : digits.dropWhile Char.isDigit = [] :=
    List.dropWhile_eq_nil_iff.mpr areDigits
  simp [unsigned?, kept, nothing, exponent?]

/-- The digits of a number have no superfluous zero. -/
theorem isStrict_decimal (negative : Bool) (n : Nat) :
    isStrict ⟨negative, Nat.toDigits 10 n, none, none⟩ = true := by
  have nonempty : Nat.toDigits 10 n ≠ [] := Nat.toDigits_ne_nil
  by_cases zero : n = 0
  · rw [zero]
    rfl
  · have first := head?_decimal zero
    simp [isStrict, nonempty, first]

theorem strict?_minus (n : Nat) :
    strict? ('-' :: Nat.toDigits 10 n) = some ⟨true, Nat.toDigits 10 n, none, none⟩ := by
  rw [strict?, unsigned?_digits true fun c => isDigit_of_mem_decimal, Option.filter_some,
    if_pos (isStrict_decimal true n)]

theorem strict?_decimal (n : Nat) :
    strict? (Nat.toDigits 10 n) = some ⟨false, Nat.toDigits 10 n, none, none⟩ := by
  unfold strict?
  split
  · next rest minus =>
      have noDigit : '-'.isDigit = true := by
        apply isDigit_of_mem_decimal (n := n)
        rw [minus]
        exact List.mem_cons_self
      cases noDigit
  · rw [unsigned?_digits false fun c => isDigit_of_mem_decimal, Option.filter_some,
      if_pos (isStrict_decimal false n)]

end Numeral

namespace Number

/-- Digits with or without a minus are read as an integer, if it is small and not minus zero. -/
theorem ofStrict?_digits {text : List Char} {negative : Bool} {n : Nat} {value : Int}
    (read : Numeral.strict? text = some ⟨negative, Nat.toDigits 10 n, none, none⟩)
    (signed : (if negative then -(n : Int) else n) = value) (small : isInteger value = true)
    (nonzero : negative = true → n ≠ 0) : ofStrict? text = some (.integer value) := by
  have significand :
      (Numeral.decimal ⟨negative, Nat.toDigits 10 n, none, none⟩).significand = n := by
    simp [Numeral.decimal, Nat.ofDigitChars_toDigits]
  have notMinusZero : (negative && n == 0) = false := by
    cases negative with
    | false =>
        rfl
    | true =>
        exact beq_false_of_ne (nonzero rfl)
  simp only [ofStrict?, read, Option.bind_eq_bind, Option.bind_some, significand, signed,
    Numeral.isIntegral, small, notMinusZero]
  rfl

/-- An integer is read back from its text. -/
theorem ofStrict?_integerText {value : Int} (small : isInteger value = true) :
    ofStrict? (integerText value) = some (.integer value) := by
  rw [integerText]
  by_cases negative : value < 0
  · have magnitude : -(value.natAbs : Int) = value := by omega
    have nonzero : value.natAbs ≠ 0 := by omega
    rw [if_pos negative]
    exact ofStrict?_digits (Numeral.strict?_minus value.natAbs) magnitude small fun _ => nonzero
  · have magnitude : (value.natAbs : Int) = value := by omega
    rw [if_neg negative]
    exact ofStrict?_digits (Numeral.strict?_decimal value.natAbs) magnitude small (by simp)

end Number

/-- The characters behind the first digit of a number: those of numerals, and the minus of a power
of ten. -/
def IsNumberChar (c : Char) : Prop :=
  Lexer.isNumeralChar c = true ∨ c = '-'

theorem isNumberChar_of_isDigit {c : Char} (digit : c.isDigit = true) : IsNumberChar c := by
  simp [IsNumberChar, Lexer.isNumeralChar, digit]

/-- Digits, at least one, with characters of numbers behind them. -/
def IsUnsigned (text : List Char) : Prop :=
  ∃ first others, text = first :: others ∧ first.isDigit = true ∧
    ∀ c ∈ others, IsNumberChar c

/-- The text of a number, which may have a minus in front. -/
inductive IsNumberText : List Char → Prop
  | plain {text : List Char} :
      IsUnsigned text →
      IsNumberText text
  | minus {text : List Char} :
      IsUnsigned text →
      IsNumberText ('-' :: text)

theorem IsUnsigned.append {whole others : List Char} (nonempty : whole ≠ [])
    (digits : ∀ c ∈ whole, c.isDigit = true) (kept : ∀ c ∈ others, IsNumberChar c) :
    IsUnsigned (whole ++ others) := by
  cases whole with
  | nil =>
      exact absurd rfl nonempty
  | cons first later =>
      refine ⟨first, later ++ others, rfl, digits first List.mem_cons_self, ?_⟩
      intro c member
      rcases List.mem_append.mp member with inWhole | behind
      · exact isNumberChar_of_isDigit (digits c (List.mem_cons_of_mem first inWhole))
      · exact kept c behind

theorem isUnsigned_decimal (n : Nat) : IsUnsigned (Nat.toDigits 10 n) := by
  have whole : IsUnsigned (Nat.toDigits 10 n ++ []) :=
    IsUnsigned.append Nat.toDigits_ne_nil (fun c => isDigit_of_mem_decimal) (by simp)
  rwa [List.append_nil] at whole

theorem minus_not_mem {digits : List Char} (areDigits : ∀ c ∈ digits, c.isDigit = true) :
    '-' ∉ digits := by
  intro member
  cases areDigits '-' member

/-- The text of an integer has no minus but its sign. -/
theorem Number.minus_not_mem_integerText (value : Int) : '-' ∉ (integerText value).tail := by
  have noMinus : '-' ∉ Nat.toDigits 10 value.natAbs :=
    minus_not_mem fun c => isDigit_of_mem_decimal
  rw [integerText]
  split
  · exact noMinus
  · exact fun member => noMinus (List.mem_of_mem_tail member)

theorem Number.isNumberText_integerText (value : Int) : IsNumberText (integerText value) := by
  rw [integerText]
  split
  · exact .minus (isUnsigned_decimal value.natAbs)
  · exact .plain (isUnsigned_decimal value.natAbs)

namespace Binary64

theorem significand_ne_zero_of_readsBack {magnitude : Nat} {decimal : Decimal}
    (positive : magnitude ≠ 0) (back : readsBack magnitude decimal = true) :
    decimal.significand ≠ 0 := by
  intro zero
  have isZero : decimal.nearest? false = some (Binary64.zero false) := by
    simp [Decimal.nearest?, zero]
  rw [readsBack, isZero] at back
  exact positive (beq_iff_eq.mp back).symm

theorem readsBack_of_onGrid? {magnitude : Nat} {exponent : Int} {decimal : Decimal}
    (found : onGrid? magnitude exponent = some decimal) : readsBack magnitude decimal = true := by
  unfold onGrid? at found
  dsimp only at found
  split at found
  · next below =>
      rw [← Option.some.inj found]
      exact (Bool.and_eq_true_iff.mp below).1
  · split at found
    · next above =>
        rw [← Option.some.inj found]
        exact above
    · cases found

theorem unitsOf_ne_zero {magnitude : Nat} (positive : magnitude ≠ 0) : unitsOf magnitude ≠ 0 := by
  rw [unitsOf]
  split
  · exact positive
  · have binadePositive : 0 < binade := by decide
    have factorPositive : 0 < Nat.pow 2 (magnitude / binade - 1) := Nat.pow_pos (by decide)
    have product := Nat.mul_pos (Nat.add_pos_left binadePositive (magnitude % binade))
      factorPositive
    omega

theorem significand_exact {magnitude : Nat} (positive : magnitude ≠ 0) :
    (exact magnitude).significand ≠ 0 := by
  rw [exact]
  -- the power is made a variable, so that nothing is computed with it
  generalize (1074 : Nat) = power
  exact Nat.mul_ne_zero (unitsOf_ne_zero positive) (Nat.ne_of_gt (Nat.pow_pos (by decide)))

theorem shortest_eq (magnitude : Nat) :
    shortest magnitude =
      ((List.range 17).findSome? fun (extra : Nat) =>
        onGrid? magnitude (leadingExponent (unitsOf magnitude) - extra)).getD
          (exact magnitude) := by
  rw [shortest]

theorem significand_shortest {magnitude : Nat} (positive : magnitude ≠ 0) :
    (shortest magnitude).significand ≠ 0 := by
  rw [shortest_eq]
  cases found : (List.range 17).findSome? fun (extra : Nat) =>
      onGrid? magnitude (leadingExponent (unitsOf magnitude) - extra) with
  | none =>
      exact significand_exact positive
  | some decimal =>
      obtain ⟨extra, _, onGrid⟩ := List.exists_of_findSome?_eq_some found
      exact significand_ne_zero_of_readsBack positive (readsBack_of_onGrid? onGrid)

section Text

variable {digits : List Char}

theorem isUnsigned_positionalText (areDigits : ∀ c ∈ digits, c.isDigit = true) (leading : Int) :
    IsUnsigned (positionalText digits leading) := by
  have zeros (count : Nat) : ∀ c ∈ List.replicate count '0', c.isDigit = true := by
    intro c member
    rw [List.eq_of_mem_replicate member]
    rfl
  have point : IsNumberChar '.' := .inl rfl
  rw [positionalText]
  split
  · refine ⟨'0', _, rfl, rfl, ?_⟩
    intro c member
    rcases List.mem_cons.mp member with isPoint | behind
    · exact isPoint ▸ point
    · rcases List.mem_append.mp behind with isZero | inDigits
      · exact isNumberChar_of_isDigit (zeros _ c isZero)
      · exact isNumberChar_of_isDigit (areDigits c inDigits)
  · apply IsUnsigned.append
    · -- there are as many places before the point as the exponent says, so at least one
      intro empty
      have length := congrArg List.length empty
      simp only [List.length_append, List.length_take, List.length_replicate,
        List.length_nil] at length
      omega
    · intro c member
      rcases List.mem_append.mp member with taken | isZero
      · exact areDigits c (List.mem_of_mem_take taken)
      · exact zeros _ c isZero
    · intro c member
      rcases List.mem_cons.mp member with isPoint | behind
      · exact isPoint ▸ point
      · split at behind
        · rw [List.mem_singleton.mp behind]
          exact isNumberChar_of_isDigit rfl
        · exact isNumberChar_of_isDigit (areDigits c (List.mem_of_mem_drop behind))

theorem isUnsigned_scientificText (nonempty : digits ≠ [])
    (areDigits : ∀ c ∈ digits, c.isDigit = true) (leading : Int) :
    IsUnsigned (scientificText digits leading) := by
  have power : ∀ c ∈ 'e' :: (if leading < 0 then '-' else '+') ::
      Nat.toDigits 10 leading.natAbs, IsNumberChar c := by
    intro c member
    rcases List.mem_cons.mp member with isLetter | behind
    · exact isLetter ▸ .inl rfl
    · rcases List.mem_cons.mp behind with isSign | inDigits
      · rw [isSign]
        split
        · exact .inr rfl
        · exact .inl rfl
      · exact isNumberChar_of_isDigit (isDigit_of_mem_decimal inDigits)
  match digits with
  | [first] =>
      exact IsUnsigned.append nonempty areDigits power
  | first :: next :: rest =>
      refine ⟨first, _, rfl, areDigits first List.mem_cons_self, ?_⟩
      intro c member
      rcases List.mem_cons.mp member with isPoint | behind
      · exact isPoint ▸ .inl rfl
      · rcases List.mem_append.mp behind with inDigits | inPower
        · exact isNumberChar_of_isDigit (areDigits c (List.mem_cons_of_mem first inDigits))
        · exact power c inPower

theorem isUnsigned_decimalText {decimal : Decimal} (positive : decimal.significand ≠ 0) :
    IsUnsigned (decimalText decimal) := by
  rw [decimalText]
  split
  · exact isUnsigned_positionalText (fun c => isDigit_of_mem_significant) _
  · exact isUnsigned_scientificText (significant_ne_nil positive)
      (fun c => isDigit_of_mem_significant) _

theorem isUnsigned_magnitude (magnitude : Nat) :
    IsUnsigned (if magnitude = 0 then ['0', '.', '0'] else decimalText (shortest magnitude)) := by
  split
  · refine ⟨'0', ['.', '0'], rfl, rfl, ?_⟩
    intro c member
    rcases List.mem_cons.mp member with isPoint | behind
    · exact isPoint ▸ .inl rfl
    · exact List.mem_singleton.mp behind ▸ .inl rfl
  · next positive =>
      exact isUnsigned_decimalText (significand_shortest positive)

theorem minus_not_mem_positionalText (areDigits : ∀ c ∈ digits, c.isDigit = true)
    (leading : Int) : '-' ∉ positionalText digits leading := by
  have noMinus := minus_not_mem areDigits
  rw [positionalText]
  split
  · simp [noMinus]
  · have taken : '-' ∉ digits.take (leading.toNat + 1) := fun member =>
      noMinus (List.mem_of_mem_take member)
    have dropped : '-' ∉ digits.drop (leading.toNat + 1) := fun member =>
      noMinus (List.mem_of_mem_drop member)
    simp only [List.mem_append, List.mem_cons, List.mem_replicate, taken, false_or, not_or]
    refine ⟨by simp, by decide, ?_⟩
    split
    · decide
    · exact dropped

/-- Only a negative power of ten is written with a minus. -/
theorem minus_mem_scientificText_iff (areDigits : ∀ c ∈ digits, c.isDigit = true)
    (leading : Int) : '-' ∈ scientificText digits leading ↔ leading < 0 := by
  have noMinus := minus_not_mem areDigits
  have power : '-' ∉ Nat.toDigits 10 leading.natAbs :=
    minus_not_mem fun c => isDigit_of_mem_decimal
  have ending : '-' ∈ 'e' :: (if leading < 0 then '-' else '+') ::
      Nat.toDigits 10 leading.natAbs ↔ leading < 0 := by
    by_cases negative : leading < 0
    · simp [negative]
    · simp [negative, power]
  match digits with
  | [] =>
      exact ending
  | [first] =>
      exact (List.mem_append.trans (or_congr_right ending)).trans (or_iff_right noMinus)
  | first :: next :: rest =>
      have mantissa : '-' ∉ first :: '.' :: next :: rest := by
        simpa [not_or] using noMinus
      exact (List.mem_append.trans (or_congr_right ending)).trans (or_iff_right mantissa)

/-- The number is not zero, but the leading digit of its text stands for less than `10 ^ (-5)`. -/
def IsTiny (value : Binary64) : Prop :=
  value.magnitude ≠ 0 ∧
    (shortest value.magnitude).exponent +
      (Nat.toDigits 10 (shortest value.magnitude).significand).length - 1 < -5

theorem minus_mem_decimalText_iff (decimal : Decimal) :
    '-' ∈ decimalText decimal ↔
      decimal.exponent + (Nat.toDigits 10 decimal.significand).length - 1 < -5 := by
  rw [decimalText]
  generalize decimal.exponent + ((Nat.toDigits 10 decimal.significand).length : Int) - 1 = leading
  split
  · next inRange =>
      have least : -5 ≤ leading := of_decide_eq_true (Bool.and_eq_true_iff.mp inRange).1
      constructor
      · intro member
        exact absurd member
          (minus_not_mem_positionalText (fun c => isDigit_of_mem_significant) leading)
      · intro tiny
        omega
  · next outside =>
      have bounds : ¬ (-5 ≤ leading ∧ leading < 16) := by
        rintro ⟨least, below⟩
        exact outside (Bool.and_eq_true_iff.mpr ⟨decide_eq_true least, decide_eq_true below⟩)
      rw [minus_mem_scientificText_iff fun c => isDigit_of_mem_significant]
      omega

/-- Behind its first character the text of a number has a minus exactly if the number is tiny. -/
theorem minus_mem_tail_iff (value : Binary64) : '-' ∈ value.text.tail ↔ value.IsTiny := by
  let magnitude := if value.magnitude = 0 then ['0', '.', '0']
    else decimalText (shortest value.magnitude)
  have unsigned : IsUnsigned magnitude := isUnsigned_magnitude value.magnitude
  have minus : '-' ∈ magnitude ↔ value.IsTiny := by
    by_cases zero : value.magnitude = 0
    · simp only [magnitude, if_pos zero]
      exact iff_of_false (by decide) fun tiny => tiny.1 zero
    · simp only [magnitude, IsTiny, if_neg zero, minus_mem_decimalText_iff]
      exact (and_iff_right zero).symm
  have text : value.text = if value.negative then '-' :: magnitude else magnitude := rfl
  rw [text, ← minus]
  split
  · rfl
  · obtain ⟨first, others, spelled, digit, _⟩ := unsigned
    have notFirst : '-' ≠ first := by
      intro same
      rw [← same] at digit
      cases digit
    rw [spelled, List.tail_cons, List.mem_cons]
    exact (or_iff_right notFirst).symm

/-- The text of a binary64 number is the text of a number. -/
theorem isNumberText_text (value : Binary64) : IsNumberText value.text := by
  have magnitude := isUnsigned_magnitude value.magnitude
  rw [text]
  split
  · exact .minus magnitude
  · exact .plain magnitude

end Text

end Binary64

/-- The text of a number is one. -/
theorem Number.isNumberText_chars (number : Number) : IsNumberText number.chars := by
  cases number with
  | integer value =>
      exact isNumberText_integerText value
  | float value =>
      exact value.isNumberText_text

end DocQuery
