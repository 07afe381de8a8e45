import DocQuery.Proofs.Decimal.Text
import Mathlib.Tactic.Ring

/-!
# The nearest binary64 number of a decimal

Rounding depends on the value of a decimal only: zeros at the end of the significand that the
exponent makes up for do not change the nearest number. A magnitude that is written out in full is
its own nearest number, and so is the shortest decimal that is searched for it.
-/

namespace DocQuery

theorem divRoundEven_mul {factor : Nat} (positive : 0 < factor) (numerator denominator : Nat) :
    divRoundEven (numerator * factor) (denominator * factor) =
      divRoundEven numerator denominator := by
  simp only [divRoundEven, Nat.mul_div_mul_right _ _ positive, Nat.mul_mod_mul_right,
    ← Nat.mul_assoc, Nat.mul_lt_mul_right positive]

theorem divRoundEven_one (numerator : Nat) : divRoundEven numerator 1 = numerator := by
  simp [divRoundEven, Nat.mod_one]

theorem divRoundEven_exact (quotient : Nat) {denominator : Nat} (positive : 0 < denominator) :
    divRoundEven (quotient * denominator) denominator = quotient := by
  have cancelled := divRoundEven_mul positive quotient 1
  rwa [Nat.one_mul, divRoundEven_one] at cancelled

theorem digitCount_mul_ten {n : Nat} (positive : n ≠ 0) : digitCount (n * 10) = digitCount n + 1 := by
  have digits : Nat.toDigits 10 n ++ Nat.toDigits 10 0 = Nat.toDigits 10 (10 * n + 0) :=
    Nat.toDigits_append_toDigits (by decide) (Nat.pos_of_ne_zero positive) (by decide)
  have lengths := congrArg List.length digits
  rw [List.length_append] at lengths
  rw [digitCount, digitCount, Nat.mul_comm]
  exact lengths.symm

theorem digitCount_mul_pow {n : Nat} (positive : n ≠ 0) (zeros : Nat) :
    digitCount (n * 10 ^ zeros) = digitCount n + zeros := by
  induction zeros with
  | zero =>
      simp
  | succ zeros inductionHypothesis =>
      have product : n * 10 ^ zeros ≠ 0 := by
        simp [positive]
      rw [Nat.pow_succ, ← Nat.mul_assoc, digitCount_mul_ten product, inductionHypothesis]
      omega

namespace Binary64

theorem nearestMagnitude_mul {factor : Nat} (positive : 0 < factor)
    (numerator denominator : Nat) :
    nearestMagnitude (numerator * factor) (denominator * factor) =
      nearestMagnitude numerator denominator := by
  simp only [nearestMagnitude, Nat.mul_div_mul_right _ _ positive,
    Nat.mul_right_comm denominator factor, divRoundEven_mul positive]

/-- Equal fractions have one nearest magnitude. -/
theorem nearestMagnitude_eq {numerator denominator other otherDenominator : Nat}
    (positive : 0 < denominator) (otherPositive : 0 < otherDenominator)
    (equal : numerator * otherDenominator = other * denominator) :
    nearestMagnitude numerator denominator = nearestMagnitude other otherDenominator := by
  rw [← nearestMagnitude_mul otherPositive numerator, equal, Nat.mul_comm denominator,
    nearestMagnitude_mul positive]

/-- Above the first binade a magnitude has fifty-three significant bits. -/
theorem log2_unitsOf {magnitude : Nat} (large : binade ≤ magnitude) :
    (unitsOf magnitude).log2 = 52 + (magnitude / binade - 1) := by
  have remainder : magnitude % binade < binade := Nat.mod_lt _ (by decide)
  have positive : unitsOf magnitude ≠ 0 := by
    apply unitsOf_ne_zero
    have : 0 < binade := by decide
    omega
  have bits : binade = 2 ^ 52 := by decide
  rw [Nat.log2_eq_iff positive, unitsOf, if_neg (Nat.not_lt.mpr large)]
  generalize magnitude / binade - 1 = scale
  have scalePositive : 0 < 2 ^ scale := Nat.pow_pos (by decide)
  constructor
  · rw [Nat.pow_add, ← bits]
    exact Nat.mul_le_mul_right _ (Nat.le_add_right binade _)
  · have below : binade + magnitude % binade < 2 ^ 53 := by
      have double : binade + binade = 2 ^ 53 := by decide
      omega
    have sum : 52 + scale + 1 = 53 + scale := by omega
    rw [sum, Nat.pow_add]
    exact Nat.mul_lt_mul_of_pos_right below scalePositive

/-- A magnitude is the nearest one to itself. -/
theorem nearestMagnitude_unitsOf (magnitude : Nat) :
    nearestMagnitude (unitsOf magnitude) 1 = magnitude := by
  rw [nearestMagnitude, Nat.div_one, Nat.one_mul]
  by_cases small : magnitude < binade
  · have units : unitsOf magnitude = magnitude := if_pos small
    have scale : magnitude.log2 - 52 = 0 := by
      by_cases zero : magnitude = 0
      · rw [zero]
        decide
      · have bits : binade = 2 ^ 52 := by decide
        have below : magnitude.log2 < 52 := (Nat.log2_lt zero).mpr (bits ▸ small)
        omega
    rw [units, scale]
    simp [divRoundEven_one]
  · have large : binade ≤ magnitude := Nat.not_lt.mp small
    have scale : (unitsOf magnitude).log2 - 52 = magnitude / binade - 1 := by
      rw [log2_unitsOf large]
      omega
    have units : unitsOf magnitude =
        (binade + magnitude % binade) * Nat.pow 2 (magnitude / binade - 1) := if_neg small
    have spacing : 0 < Nat.pow 2 (magnitude / binade - 1) := Nat.pow_pos (by decide)
    have quotientPositive : 0 < magnitude / binade := Nat.div_pos large (by decide)
    rw [scale, units, divRoundEven_exact _ spacing]
    have parts := Nat.div_add_mod magnitude binade
    have shifted : (magnitude / binade - 1) * binade + binade = magnitude / binade * binade := by
      rw [← Nat.succ_mul, Nat.succ_eq_add_one, Nat.sub_add_cancel quotientPositive]
    rw [Nat.mul_comm] at parts
    omega

end Binary64

namespace Decimal

theorem fraction_denominator_pos (decimal : Decimal) : 0 < decimal.fraction.2 :=
  Nat.pow_pos (by decide)

theorem fraction_neg (significand places : Nat) :
    fraction ⟨significand, -places⟩ = (significand * unitsPerOne, 10 ^ places) := by
  have exponent : (-(places : Int)).toNat = 0 := by omega
  simp [fraction, exponent]

theorem nearest?_zero (negative : Bool) (exponent : Int) :
    nearest? negative ⟨0, exponent⟩ = some (Binary64.zero negative) := by
  simp [nearest?]

/-- Zeros at the end of the significand that the exponent makes up for do not matter. -/
theorem nearest?_shift (negative : Bool) (significand : Nat) (exponent : Int) (zeros : Nat) :
    nearest? negative ⟨significand * 10 ^ zeros, exponent - zeros⟩ =
      nearest? negative ⟨significand, exponent⟩ := by
  by_cases zero : significand = 0
  · rw [zero, Nat.zero_mul, nearest?_zero, nearest?_zero]
  · have product : significand * 10 ^ zeros ≠ 0 := by
      simp [zero]
    have size : (digitCount (significand * 10 ^ zeros) : Int) + (exponent - zeros) =
        digitCount significand + exponent := by
      rw [digitCount_mul_pow zero]
      omega
    have magnitude : Binary64.nearestMagnitude
          (fraction ⟨significand * 10 ^ zeros, exponent - zeros⟩).1
          (fraction ⟨significand * 10 ^ zeros, exponent - zeros⟩).2 =
        Binary64.nearestMagnitude (fraction ⟨significand, exponent⟩).1
          (fraction ⟨significand, exponent⟩).2 := by
      apply Binary64.nearestMagnitude_eq (fraction_denominator_pos _) (fraction_denominator_pos _)
      have exponents : zeros + (exponent - zeros).toNat + (-exponent).toNat =
          exponent.toNat + (-(exponent - zeros)).toNat := by
        omega
      have powers := congrArg (10 ^ ·) exponents
      simp only [Nat.pow_add] at powers
      simp only [fraction, Nat.pow_eq]
      calc significand * 10 ^ zeros * 10 ^ (exponent - zeros).toNat * unitsPerOne *
            10 ^ (-exponent).toNat
          = significand * unitsPerOne *
              (10 ^ zeros * 10 ^ (exponent - zeros).toNat * 10 ^ (-exponent).toNat) := by ring
        _ = significand * unitsPerOne * (10 ^ exponent.toNat * 10 ^ (-(exponent - zeros)).toNat) := by
            rw [powers]
        _ = significand * 10 ^ exponent.toNat * unitsPerOne * 10 ^ (-(exponent - zeros)).toNat := by
            ring
    simp only [nearest?, zero, product, size, magnitude]

theorem nearest?_sign {decimal : Decimal} {value : Binary64} (negative : Bool)
    (found : decimal.nearest? false = some value) :
    decimal.nearest? negative = some ⟨negative, value.magnitude, value.finite⟩ := by
  unfold nearest? at found ⊢
  dsimp only at found ⊢
  split
  · next isZero =>
      rw [if_pos isZero] at found
      rw [← Option.some.inj found]
      rfl
  · next notZero =>
      rw [if_neg notZero] at found
      split
      · next large =>
          rw [if_pos large] at found
          cases found
      · next small =>
          rw [if_neg small] at found
          unfold Binary64.ofMagnitude? at found ⊢
          split
          · next finite =>
              rw [dif_pos finite] at found
              rw [← Option.some.inj found]
          · next infinite =>
              rw [dif_neg infinite] at found
              cases found

end Decimal

namespace Binary64

theorem unitsOf_lt {magnitude : Nat} (finite : magnitude < finiteMagnitudes) :
    unitsOf magnitude < 2 ^ 2098 := by
  rw [unitsOf]
  split
  · next small =>
      have binadeSmall : binade < 2 ^ 2098 := by decide +kernel
      omega
  · have quotient : magnitude / binade - 1 ≤ 2045 := by
      have below : magnitude / binade < 2047 := Nat.div_lt_of_lt_mul (by
        rwa [finiteMagnitudes, Nat.mul_comm] at finite)
      omega
    have below : binade + magnitude % binade < 2 ^ 53 := by
      have remainder : magnitude % binade < binade := Nat.mod_lt _ (by decide)
      have double : binade + binade = 2 ^ 53 := by decide
      omega
    calc (binade + magnitude % binade) * Nat.pow 2 (magnitude / binade - 1)
        < 2 ^ 53 * 2 ^ (magnitude / binade - 1) :=
          Nat.mul_lt_mul_of_pos_right below (Nat.pow_pos (by decide))
      _ ≤ 2 ^ 53 * 2 ^ 2045 :=
          Nat.mul_le_mul_left _ (Nat.pow_le_pow_right (by decide) quotient)
      _ ≤ 2 ^ 2098 := by decide +kernel

/-- The power is made a variable for a moment, so that nothing is computed with it. -/
theorem significand_exact_eq (magnitude : Nat) :
    (exact magnitude).significand = unitsOf magnitude * 5 ^ 1074 := by
  rw [exact]
  generalize (1074 : Nat) = power
  rfl

/-- The digits of a magnitude that is written out in full stay within the bounds of rounding. -/
theorem digitCount_exact {magnitude : Nat} (positive : magnitude ≠ 0)
    (finite : magnitude < finiteMagnitudes) :
    744 ≤ digitCount (exact magnitude).significand ∧
      digitCount (exact magnitude).significand ≤ 1384 := by
  have units : 0 < unitsOf magnitude := Nat.pos_of_ne_zero (unitsOf_ne_zero positive)
  rw [digitCount, significand_exact_eq]
  constructor
  · have large : 10 ^ 743 ≤ unitsOf magnitude * 5 ^ 1074 :=
      calc 10 ^ 743 ≤ 5 ^ 1074 := by decide +kernel
        _ ≤ unitsOf magnitude * 5 ^ 1074 := Nat.le_mul_of_pos_left _ units
    have longer := mt (Nat.length_toDigits_le_iff (by decide) (by decide)).mp (Nat.not_lt.mpr large)
    omega
  · apply (Nat.length_toDigits_le_iff (by decide) (by decide)).mpr
    have power : 0 < 5 ^ 1074 := by decide +kernel
    have below : unitsOf magnitude * 5 ^ 1074 < 2 ^ 2098 * 5 ^ 1074 :=
      Nat.mul_lt_mul_of_pos_right (unitsOf_lt finite) power
    apply Nat.lt_of_lt_of_le below
    decide +kernel

/-- A magnitude that is written out in full rounds to itself. -/
theorem nearest?_exact {magnitude : Nat} (positive : magnitude ≠ 0)
    (finite : magnitude < finiteMagnitudes) :
    (exact magnitude).nearest? false = some ⟨false, magnitude, finite⟩ := by
  have digits := digitCount_exact positive finite
  have exponent : (exact magnitude).exponent = -1074 := rfl
  have nearest : nearestMagnitude (exact magnitude).fraction.1 (exact magnitude).fraction.2 =
      magnitude := by
    have units : nearestMagnitude (exact magnitude).fraction.1 (exact magnitude).fraction.2 =
        nearestMagnitude (unitsOf magnitude) 1 := by
      apply nearestMagnitude_eq (Decimal.fraction_denominator_pos _) Nat.one_pos
      have powers : 5 ^ 1074 * unitsPerOne = 10 ^ 1074 := by decide +kernel
      have value : (exact magnitude).fraction =
          (unitsOf magnitude * 5 ^ 1074 * unitsPerOne, 10 ^ 1074) := by
        rw [← significand_exact_eq]
        exact Decimal.fraction_neg (exact magnitude).significand 1074
      rw [value, Nat.mul_one, Nat.mul_assoc, powers]
    rw [units, nearestMagnitude_unitsOf]
  have notZero : (decide ((exact magnitude).significand = 0) ||
      decide ((digitCount (exact magnitude).significand : Int) + (exact magnitude).exponent <
        -330)) = false := by
    simp only [exponent, Bool.or_eq_false_iff, decide_eq_false_iff_not]
    exact ⟨significand_exact positive, by omega⟩
  have notLarge : ¬ 310 < (digitCount (exact magnitude).significand : Int) +
      (exact magnitude).exponent := by
    rw [exponent]
    omega
  simp only [Decimal.nearest?, notZero, notLarge, nearest, if_false, ofMagnitude?, dif_pos finite]
  rfl

theorem readsBack_exact {magnitude : Nat} (positive : magnitude ≠ 0)
    (finite : magnitude < finiteMagnitudes) : readsBack magnitude (exact magnitude) = true := by
  rw [readsBack, nearest?_exact positive finite]
  exact beq_self_eq_true magnitude

theorem readsBack_shortest {magnitude : Nat} (positive : magnitude ≠ 0)
    (finite : magnitude < finiteMagnitudes) : readsBack magnitude (shortest magnitude) = true := by
  rw [shortest_eq]
  cases found : (List.range 17).findSome? fun (extra : Nat) =>
      onGrid? magnitude (leadingExponent (unitsOf magnitude) - extra) with
  | none =>
      exact readsBack_exact positive finite
  | some decimal =>
      obtain ⟨extra, _, onGrid⟩ := List.exists_of_findSome?_eq_some found
      exact readsBack_of_onGrid? onGrid

/-- The shortest decimal of a magnitude is read as this magnitude, with either sign. -/
theorem nearest?_shortest {value : Binary64} (positive : value.magnitude ≠ 0) :
    (shortest value.magnitude).nearest? value.negative = some value := by
  have back := readsBack_shortest positive value.finite
  rw [readsBack] at back
  split at back
  · next read found =>
      have same : read.magnitude = value.magnitude := beq_iff_eq.mp back
      rw [Decimal.nearest?_sign value.negative found]
      congr 1
      cases value
      cases same
      rfl
  · cases back

end Binary64

end DocQuery
