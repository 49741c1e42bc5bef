import ScreenCompare.Proofs.Float.Packing

/-!
# Rounding floating-point numbers

The result of an operation is rounded to the number of digits that the format
asks for.  A mantissa with at least that many digits is cut and rounded, which
may carry into one more digit; the result is normal either way
(`normal_roundWithAccuracy`).  A mantissa that ends in zeros is kept exactly
(`roundWithAccuracy_exact`).  It follows what whole numbers are converted to
(`round_eq`) and that a quotient of normal numbers is normal (`normal_div`).
-/

namespace ScreenCompare.Unpacked

open Float.Model (Format UnpackedFloat totalExponent)
open Float.Model.UnpackedFloat

variable {format : Format}

/-! ## Cutting digits -/

theorem mantissa_ofMantissaAndAccuracy (mantissa : Nat)
    (accuracy : Accuracy) :
    (ExtendedMantissa.ofMantissaAndAccuracy mantissa accuracy).mantissa =
      mantissa := by
  cases accuracy with
  | exact => rfl
  | inexact side =>
      cases side with
      | lt => rfl
      | eq => rfl
      | gt => rfl

theorem mantissa_shiftRight (extended : ExtendedMantissa) (amount : Nat) :
    (extended >>> amount).mantissa = extended.mantissa / 2 ^ amount := by
  induction amount with
  | zero => exact (Nat.div_one _).symm
  | succ amount previous =>
      show (extended >>> amount).mantissa / 2 = _
      rw [previous, Nat.div_div_eq_div_mul, Nat.pow_succ]

/-- Cutting zeros loses nothing. -/
theorem shiftRight_exact (mantissa amount : Nat) :
    ExtendedMantissa.ofMantissaAndAccuracy (mantissa * 2 ^ amount) .exact >>>
        amount =
      ExtendedMantissa.ofMantissaAndAccuracy mantissa .exact := by
  induction amount generalizing mantissa with
  | zero =>
      rw [Nat.pow_zero, Nat.mul_one]
      rfl
  | succ amount previous =>
      have split : mantissa * 2 ^ (amount + 1) =
          mantissa * 2 * 2 ^ amount := by
        rw [Nat.pow_succ, Nat.mul_assoc, Nat.mul_comm 2]
      show ExtendedMantissa.shiftRightOne
        (ExtendedMantissa.ofMantissaAndAccuracy _ .exact >>> amount) = _
      rw [split, previous]
      simp [ExtendedMantissa.shiftRightOne,
        ExtendedMantissa.ofMantissaAndAccuracy]

theorem roundedMantissa_bounds (extended : ExtendedMantissa) :
    extended.mantissa ≤ extended.roundedMantissa ∧
      extended.roundedMantissa ≤ extended.mantissa + 1 := by
  obtain ⟨mantissa, roundBit, stickyBit⟩ := extended
  cases roundBit with
  | false =>
      cases stickyBit with
      | false => exact ⟨Nat.le_refl _, Nat.le_succ _⟩
      | true => exact ⟨Nat.le_refl _, Nat.le_succ _⟩
  | true =>
      cases stickyBit with
      | false =>
          show mantissa ≤ mantissa + mantissa % 2 ∧
            mantissa + mantissa % 2 ≤ mantissa + 1
          omega
      | true => exact ⟨Nat.le_succ _, Nat.le_refl _⟩

/-- A mantissa with digits in excess is cut by as many digits. -/
theorem shiftToTargetExponent_eq {mantissa excess : Nat} {exponent : Int}
    (accuracy : Accuracy)
    (width : mantissa.log2 = format.mantissaBitsWithoutImplicit + excess)
    (least : format.minExponent ≤ exponent) :
    shiftToTargetExponent format mantissa exponent accuracy =
      (ExtendedMantissa.ofMantissaAndAccuracy mantissa accuracy >>> excess,
        exponent + excess) := by
  have target : format.targetExponent (totalExponent mantissa exponent) =
      exponent + excess := by
    rw [Format.targetExponent, totalExponent, width, Format.mantissaBits]
    omega
  have amount : (exponent + excess - exponent).toNat = excess := by omega
  rw [shiftToTargetExponent, target]
  simp only [shiftToExponent, amount]

/-! ## Rounding a mantissa with enough digits -/

/-- A mantissa without its excess digits, rounded. -/
def trimmed (mantissa : Nat) (accuracy : Accuracy) (excess : Nat) : Nat :=
  (ExtendedMantissa.ofMantissaAndAccuracy mantissa accuracy >>>
    excess).roundedMantissa

/--
A trimmed mantissa has the digits left over, or is the power of two above them.
-/
theorem trimmed_bounds {mantissa excess width : Nat} (accuracy : Accuracy)
    (nonzero : mantissa ≠ 0) (wide : mantissa.log2 = width + excess) :
    2 ^ width ≤ trimmed mantissa accuracy excess ∧
      trimmed mantissa accuracy excess ≤ 2 ^ (width + 1) := by
  have least := Nat.log2_self_le nonzero
  have most := Nat.lt_log2_self (n := mantissa)
  rw [wide, Nat.pow_add] at least
  rw [wide, Nat.add_right_comm, Nat.pow_add] at most
  have lower : 2 ^ width ≤ mantissa / 2 ^ excess :=
    (Nat.le_div_iff_mul_le (Nat.two_pow_pos excess)).2 least
  have upper : mantissa / 2 ^ excess < 2 ^ (width + 1) :=
    (Nat.div_lt_iff_lt_mul (Nat.two_pow_pos excess)).2 most
  have bounds := roundedMantissa_bounds
    (ExtendedMantissa.ofMantissaAndAccuracy mantissa accuracy >>> excess)
  rw [mantissa_shiftRight, mantissa_ofMantissaAndAccuracy] at bounds
  exact ⟨Nat.le_trans lower bounds.1, Nat.le_trans bounds.2 upper⟩

/--
Rounding trims the mantissa, and cuts once more the digits it carried into.
-/
theorem roundWithAccuracy_eq (sign : Sign) {mantissa excess carry : Nat}
    {exponent : Int} (accuracy : Accuracy)
    (width : mantissa.log2 = format.mantissaBitsWithoutImplicit + excess)
    (least : format.minExponent ≤ exponent)
    (carried : (trimmed mantissa accuracy excess).log2 =
      format.mantissaBitsWithoutImplicit + carry)
    (positive : 0 < trimmed mantissa accuracy excess / 2 ^ carry) :
    roundWithAccuracy format sign mantissa exponent accuracy =
      .finite sign (trimmed mantissa accuracy excess / 2 ^ carry)
        (exponent + excess + carry) positive := by
  have first := shiftToTargetExponent_eq accuracy width least
  have within : format.minExponent ≤ exponent + excess := by omega
  have second := shiftToTargetExponent_eq .exact carried within
  have cut : (ExtendedMantissa.ofMantissaAndAccuracy
      (trimmed mantissa accuracy excess) .exact >>> carry).mantissa =
        trimmed mantissa accuracy excess / 2 ^ carry := by
    rw [mantissa_shiftRight, mantissa_ofMantissaAndAccuracy]
  rw [trimmed] at second cut positive
  simp only [roundWithAccuracy, first, second, cut]
  rw [dif_neg (by omega)]
  rfl

theorem log2_mul_two_pow {mantissa : Nat} (nonzero : mantissa ≠ 0)
    (amount : Nat) :
    (mantissa * 2 ^ amount).log2 = mantissa.log2 + amount := by
  have product : mantissa * 2 ^ amount ≠ 0 :=
    Nat.mul_ne_zero nonzero (Nat.ne_of_gt (Nat.two_pow_pos amount))
  have least := Nat.mul_le_mul_right (2 ^ amount) (Nat.log2_self_le nonzero)
  have most := Nat.mul_lt_mul_of_pos_right
    (Nat.lt_log2_self (n := mantissa)) (Nat.two_pow_pos amount)
  rw [← Nat.pow_add] at least most
  rw [Nat.add_right_comm] at most
  exact (Nat.log2_eq_iff product).2 ⟨least, most⟩

/-- A mantissa that ends in zeros is rounded without loss. -/
theorem roundWithAccuracy_exact (sign : Sign) {mantissa : Nat}
    {exponent : Int} (excess : Nat) (positive : 0 < mantissa)
    (width : mantissa.log2 = format.mantissaBitsWithoutImplicit)
    (least : format.minExponent ≤ exponent) :
    roundWithAccuracy format sign (mantissa * 2 ^ excess) exponent .exact =
      .finite sign mantissa (exponent + excess) positive := by
  have scaled : (mantissa * 2 ^ excess).log2 =
      format.mantissaBitsWithoutImplicit + excess := by
    rw [log2_mul_two_pow (by omega), width]
  have kept : trimmed (mantissa * 2 ^ excess) .exact excess = mantissa := by
    rw [trimmed, shiftRight_exact]
    rfl
  have whole : mantissa / 2 ^ 0 = mantissa := Nat.div_one mantissa
  have carried : (trimmed (mantissa * 2 ^ excess) .exact excess).log2 =
      format.mantissaBitsWithoutImplicit + 0 := by
    rw [kept, width, Nat.add_zero]
  have rounded := roundWithAccuracy_eq sign .exact scaled least carried
    (by rw [kept, whole]; exact positive)
  simp only [kept, whole, Int.natCast_zero, Int.add_zero] at rounded
  exact rounded

/--
A mantissa with enough digits keeps as many as the format asks for, or carries
into the power of two above them.
-/
theorem roundWithAccuracy_cases (sign : Sign) {mantissa excess : Nat}
    {exponent : Int} (accuracy : Accuracy) (nonzero : mantissa ≠ 0)
    (width : mantissa.log2 = format.mantissaBitsWithoutImplicit + excess)
    (least : format.minExponent ≤ exponent) :
    (∃ kept positive,
      kept.log2 = format.mantissaBitsWithoutImplicit ∧
        roundWithAccuracy format sign mantissa exponent accuracy =
          .finite sign kept (exponent + excess) positive) ∨
      roundWithAccuracy format sign mantissa exponent accuracy =
        .finite sign (2 ^ format.mantissaBitsWithoutImplicit)
          (exponent + excess + 1) (Nat.two_pow_pos _) := by
  have bounds := trimmed_bounds accuracy nonzero width
  have power := Nat.two_pow_pos format.mantissaBitsWithoutImplicit
  rcases Nat.lt_or_eq_of_le bounds.2 with below | top
  · have carried : (trimmed mantissa accuracy excess).log2 =
        format.mantissaBitsWithoutImplicit + 0 :=
      (Nat.log2_eq_iff (by omega)).2 ⟨bounds.1, below⟩
    have whole : trimmed mantissa accuracy excess / 2 ^ 0 =
        trimmed mantissa accuracy excess := Nat.div_one _
    have positive : 0 < trimmed mantissa accuracy excess / 2 ^ 0 := by
      rw [whole]
      omega
    have rounded :=
      roundWithAccuracy_eq sign accuracy width least carried positive
    rw [Int.natCast_zero, Int.add_zero] at rounded
    exact .inl ⟨_, positive, by rw [whole, carried, Nat.add_zero], rounded⟩
  · have carried : (trimmed mantissa accuracy excess).log2 =
        format.mantissaBitsWithoutImplicit + 1 := by
      rw [top, Nat.log2_two_pow]
    have half : trimmed mantissa accuracy excess / 2 ^ 1 =
        2 ^ format.mantissaBitsWithoutImplicit := by
      rw [top, Nat.pow_succ, Nat.pow_one, Nat.mul_div_cancel _ (by decide)]
    have rounded := roundWithAccuracy_eq sign accuracy width least carried
      (by rw [half]; omega)
    simp only [half] at rounded
    exact .inr rounded

/-- A mantissa with enough digits is rounded to a normal number. -/
theorem normal_roundWithAccuracy (sign : Sign) {mantissa excess : Nat}
    {exponent : Int} (accuracy : Accuracy) (nonzero : mantissa ≠ 0)
    (width : mantissa.log2 = format.mantissaBitsWithoutImplicit + excess)
    (least : format.minExponent ≤ exponent) :
    Normal format (exponent + excess) (exponent + excess + 1)
      (roundWithAccuracy format sign mantissa exponent accuracy) := by
  obtain ⟨kept, positive, full, rounded⟩ | rounded :=
    roundWithAccuracy_cases sign accuracy nonzero width least
  · rw [rounded]
    exact ⟨full, by omega, by omega⟩
  · rw [rounded]
    exact ⟨Nat.log2_two_pow, by omega, by omega⟩

/-! ## Whole numbers -/

/-- A whole number with few enough digits is converted exactly. -/
theorem round_eq (sign : Sign) {count : Nat} (nonzero : count ≠ 0)
    (small : count.log2 ≤ format.mantissaBitsWithoutImplicit)
    (room : format.minExponent ≤ -format.mantissaBitsWithoutImplicit) :
    UnpackedFloat.round format sign count 0 =
      .finite sign
        (count * 2 ^ (format.mantissaBitsWithoutImplicit - count.log2))
        (count.log2 - format.mantissaBitsWithoutImplicit)
        (Nat.mul_pos (Nat.pos_of_ne_zero nonzero) (Nat.two_pow_pos _)) := by
  have target : format.targetExponent (totalExponent count 0) =
      count.log2 - format.mantissaBitsWithoutImplicit := by
    rw [Format.targetExponent, totalExponent, Format.mantissaBits]
    omega
  have amount :
      (0 - ((count.log2 : Int) - format.mantissaBitsWithoutImplicit)).toNat =
        format.mantissaBitsWithoutImplicit - count.log2 := by
    omega
  have lowered : (0 : Int) -
      ((format.mantissaBitsWithoutImplicit - count.log2 : Nat) : Int) =
        count.log2 - format.mantissaBitsWithoutImplicit := by
    omega
  have full :
      (count * 2 ^ (format.mantissaBitsWithoutImplicit - count.log2)).log2 =
        format.mantissaBitsWithoutImplicit := by
    rw [log2_mul_two_pow nonzero]
    omega
  have within : format.minExponent ≤
      (count.log2 : Int) - format.mantissaBitsWithoutImplicit := by
    omega
  have kept := roundWithAccuracy_exact sign 0
    (Nat.mul_pos (Nat.pos_of_ne_zero nonzero) (Nat.two_pow_pos _)) full within
  simp only [Nat.pow_zero, Nat.mul_one, Int.natCast_zero,
    Int.add_zero] at kept
  simp only [UnpackedFloat.round, target, decreaseExponent, amount, lowered,
    Nat.shiftLeft_eq]
  exact kept

/-! ## Quotients -/

/-- The quotient of full mantissas, extended by one digit more than it needs. -/
theorem log2_quotient {width dividend divisor : Nat}
    (dividendNonzero : dividend ≠ 0) (divisorNonzero : divisor ≠ 0)
    (dividendFull : dividend.log2 = width)
    (divisorFull : divisor.log2 = width) :
    ∃ excess ≤ 1,
      (dividend <<< (1 + width) / divisor).log2 = width + excess := by
  have leastDividend := Nat.log2_self_le dividendNonzero
  have mostDividend := Nat.lt_log2_self (n := dividend)
  have leastDivisor := Nat.log2_self_le divisorNonzero
  have mostDivisor := Nat.lt_log2_self (n := divisor)
  rw [dividendFull] at leastDividend mostDividend
  rw [divisorFull] at leastDivisor mostDivisor
  rw [Nat.shiftLeft_eq, Nat.add_comm 1]
  have lower : 2 ^ width ≤ dividend * 2 ^ (width + 1) / divisor := by
    rw [Nat.le_div_iff_mul_le (Nat.pos_of_ne_zero divisorNonzero)]
    exact Nat.mul_le_mul leastDividend (Nat.le_of_lt mostDivisor)
  have upper : dividend * 2 ^ (width + 1) / divisor < 2 ^ (width + 2) := by
    rw [Nat.div_lt_iff_lt_mul (Nat.pos_of_ne_zero divisorNonzero)]
    calc
      dividend * 2 ^ (width + 1) < 2 ^ (width + 1) * 2 ^ (width + 1) :=
        Nat.mul_lt_mul_of_pos_right mostDividend (Nat.two_pow_pos _)
      _ = 2 ^ (width + 2) * 2 ^ width := by
        rw [← Nat.pow_add, ← Nat.pow_add]
        congr 1
        omega
      _ ≤ 2 ^ (width + 2) * divisor := Nat.mul_le_mul_left _ leastDivisor
  have nonzero : dividend * 2 ^ (width + 1) / divisor ≠ 0 := by
    have power := Nat.two_pow_pos width
    omega
  have atLeast := (Nat.le_log2 nonzero).2 lower
  have atMost := (Nat.log2_lt nonzero).2 upper
  exact ⟨(dividend * 2 ^ (width + 1) / divisor).log2 - width,
    by omega, by omega⟩

theorem quotient_ne_zero {quotient excess : Nat}
    (width : quotient.log2 = format.mantissaBitsWithoutImplicit + excess) :
    quotient ≠ 0 := by
  rintro rfl
  have digits := format.hm
  rw [Nat.log2_zero] at width
  omega

/--
The quotient of full mantissas is rounded from one digit more than it needs.
-/
theorem div_finite {sign divisorSign : Sign} {mantissa divisorMantissa : Nat}
    {exponent divisorExponent : Int} (positive : 0 < mantissa)
    (divisorPositive : 0 < divisorMantissa)
    (full : mantissa.log2 = format.mantissaBitsWithoutImplicit)
    (divisorFull :
      divisorMantissa.log2 = format.mantissaBitsWithoutImplicit)
    (room : format.minExponent ≤
      exponent - divisorExponent - format.mantissaBits) :
    UnpackedFloat.div format (.finite sign mantissa exponent positive)
        (.finite divisorSign divisorMantissa divisorExponent
          divisorPositive) =
      roundWithAccuracy format (sign / divisorSign)
        (mantissa <<< (1 + format.mantissaBitsWithoutImplicit) /
          divisorMantissa)
        (exponent - divisorExponent - format.mantissaBits)
        (accuracyOfFraction
          (mantissa <<< (1 + format.mantissaBitsWithoutImplicit) %
            divisorMantissa) divisorMantissa) := by
  have target : min (exponent - divisorExponent)
      (format.targetExponent (totalExponent mantissa exponent -
        totalExponent divisorMantissa divisorExponent)) =
      exponent - divisorExponent - format.mantissaBits := by
    rw [Format.targetExponent, totalExponent, totalExponent, full,
      divisorFull, Format.mantissaBits]
    rw [Format.mantissaBits] at room
    omega
  have amount : (exponent - divisorExponent -
      (exponent - divisorExponent - format.mantissaBits : Int)).toNat =
        1 + format.mantissaBitsWithoutImplicit := by
    rw [Format.mantissaBits]
    omega
  simp only [UnpackedFloat.div, divCore, target, amount]

/-- A quotient of normal numbers is normal, if its exponent is in range. -/
theorem normal_div {leastDividend mostDividend leastDivisor mostDivisor : Int}
    {dividend divisor : UnpackedFloat}
    (dividendNormal : Normal format leastDividend mostDividend dividend)
    (divisorNormal : Normal format leastDivisor mostDivisor divisor)
    (room : format.minExponent ≤
      leastDividend - mostDivisor - format.mantissaBits) :
    Normal format (leastDividend - mostDivisor - format.mantissaBits)
      (mostDividend - leastDivisor - format.mantissaBits + 2)
      (UnpackedFloat.div format dividend divisor) := by
  obtain ⟨sign, mantissa, exponent, positive, rfl, full, least, most⟩ :=
    dividendNormal.exists_finite
  obtain ⟨divisorSign, divisorMantissa, divisorExponent, divisorPositive,
    rfl, divisorFull, divisorLeast, divisorMost⟩ :=
    divisorNormal.exists_finite
  obtain ⟨excess, small, width⟩ :=
    log2_quotient (by omega) (by omega) full divisorFull
  rw [div_finite positive divisorPositive full divisorFull (by omega)]
  apply (normal_roundWithAccuracy (sign / divisorSign) _
    (quotient_ne_zero width) width (by omega)).mono
  · omega
  · omega

end ScreenCompare.Unpacked
