import ScreenCompare.Proofs.Canvas.SumRounding
import ScreenCompare.Proofs.Float.Rounding

/-!
# The numbers nearest to whole numbers

A whole number with more digits than the mantissa is rounded to a multiple of
the power of two that it has in excess, ties to the even multiple.  The bits that
are kept while digits are cut off say on which side of the middle the number
lies (`Represents`), so this is what rounding in the format does
(`round_scaled`).  Sums and differences of exact whole numbers are rounded so
(`add_nearest`, `sub_nearest`), and exact whole numbers compare as such
(`compare_nearest`).
-/

namespace ScreenCompare.Unpacked

open Float.Model (Format UnpackedFloat totalExponent)
open Float.Model.UnpackedFloat
open TemplateSum (roundToMultiple roundToMultiple_of_dvd roundToMultiple_mul)

variable {format : Format}

/-! ## Cut digits -/

/--
An extended mantissa stands for a number in a unit: its mantissa is the whole
part, and its bits tell how the rest compares with half a unit.
-/
structure Represents (extended : ExtendedMantissa) (number unit : Nat) :
    Prop where
  mantissa : extended.mantissa = number / unit
  roundBit : extended.roundBit = true ↔ unit ≤ 2 * (number % unit)
  stickyBit : extended.stickyBit = true ↔
    number % unit ≠ 0 ∧ 2 * (number % unit) ≠ unit

variable {extended : ExtendedMantissa} {number unit : Nat}

theorem represents_exact (number : Nat) :
    Represents (ExtendedMantissa.ofMantissaAndAccuracy number .exact) number
      1 where
  mantissa := (Nat.div_one number).symm
  roundBit := by simp [ExtendedMantissa.ofMantissaAndAccuracy, Nat.mod_one]
  stickyBit := by simp [ExtendedMantissa.ofMantissaAndAccuracy, Nat.mod_one]

theorem Represents.shiftRightOne (represents : Represents extended number unit)
    (positive : 0 < unit) :
    Represents extended.shiftRightOne number (unit * 2) := by
  have rest := Nat.mod_lt number positive
  have cut : number % (unit * 2) = number % unit + unit * (number / unit % 2) :=
    Nat.mod_mul
  have digit : number / unit % 2 = 0 ∨ number / unit % 2 = 1 :=
    Nat.mod_two_eq_zero_or_one _
  constructor
  · rw [ExtendedMantissa.shiftRightOne, represents.mantissa,
      Nat.div_div_eq_div_mul]
  · simp only [ExtendedMantissa.shiftRightOne, represents.mantissa, bne_iff_ne]
    rcases digit with even | odd
    · rw [cut, even]
      omega
    · rw [cut, odd]
      omega
  · simp only [ExtendedMantissa.shiftRightOne, Bool.or_eq_true,
      represents.roundBit, represents.stickyBit]
    rcases digit with even | odd
    · rw [cut, even]
      omega
    · rw [cut, odd]
      omega

theorem represents_shiftRight (number amount : Nat) :
    Represents (ExtendedMantissa.ofMantissaAndAccuracy number .exact >>> amount)
      number (2 ^ amount) := by
  induction amount with
  | zero => exact represents_exact number
  | succ amount previous => exact previous.shiftRightOne (Nat.two_pow_pos amount)

theorem Represents.roundedMantissa_mul
    (represents : Represents extended number unit) (positive : 0 < unit) :
    extended.roundedMantissa * unit = roundToMultiple unit number := by
  have rest := Nat.mod_lt number positive
  obtain ⟨mantissa, roundBit, stickyBit⟩ := extended
  obtain ⟨whole, middle, beside⟩ := represents
  dsimp only at whole middle beside
  subst whole
  rw [roundToMultiple]
  cases roundBit with
  | false =>
      have below : ¬ unit ≤ 2 * (number % unit) := by simpa using middle
      rw [if_neg (by omega)]
      cases stickyBit with
      | false => rfl
      | true => rfl
  | true =>
      have above : unit ≤ 2 * (number % unit) := middle.1 rfl
      cases stickyBit with
      | true =>
          have apart := (beside.1 rfl).2
          rw [if_pos (by omega)]
          rfl
      | false =>
          -- Exactly half a unit is left, which goes to the even multiple.
          have half : 2 * (number % unit) = unit := by
            simp only [Bool.false_eq_true, false_iff] at beside
            omega
          show (number / unit + number / unit % 2) * unit = _
          rcases Nat.mod_two_eq_zero_or_one (number / unit) with even | odd
          · rw [if_neg (by omega), even, Nat.add_zero]
          · rw [if_pos (by omega), odd]

theorem trimmed_mul (number excess : Nat) :
    trimmed number .exact excess * 2 ^ excess =
      roundToMultiple (2 ^ excess) number :=
  (represents_shiftRight number excess).roundedMantissa_mul
    (Nat.two_pow_pos excess)

/-! ## Rounded whole numbers -/

/-- A whole number without the digits that the mantissa does not hold. -/
def roundWhole (format : Format) (count : Nat) : Nat :=
  roundToMultiple (2 ^ (count.log2 - format.mantissaBitsWithoutImplicit)) count

/--
The mantissa holds all digits of a whole number, but for zeros at its end.
-/
def IsExactIn (format : Format) (count : Nat) : Prop :=
  2 ^ (count.log2 - format.mantissaBitsWithoutImplicit) ∣ count

/-- A whole number with its digits moved to fill the mantissa. -/
def nearest (format : Format) (count : Nat) : UnpackedFloat :=
  if nonzero : count = 0 then .zero .positive
  else
    .finite .positive
      (count * 2 ^ format.mantissaBitsWithoutImplicit / 2 ^ count.log2)
      (count.log2 - format.mantissaBitsWithoutImplicit)
      (Nat.div_pos
        (Nat.le_trans (Nat.log2_self_le nonzero)
          (Nat.le_mul_of_pos_right count (Nat.two_pow_pos _)))
        (Nat.two_pow_pos _))

theorem nearest_zero : nearest format 0 = .zero .positive := by
  rw [nearest, dif_pos rfl]

/-- The digits of a number, moved to fill a mantissa, are full. -/
theorem log2_nearest {count : Nat} (nonzero : count ≠ 0) (width : Nat) :
    (count * 2 ^ width / 2 ^ count.log2).log2 = width := by
  have least : 2 ^ width ≤ count * 2 ^ width / 2 ^ count.log2 := by
    rw [Nat.le_div_iff_mul_le (Nat.two_pow_pos _), Nat.mul_comm]
    exact Nat.mul_le_mul_right _ (Nat.log2_self_le nonzero)
  have most : count * 2 ^ width / 2 ^ count.log2 < 2 ^ (width + 1) := by
    rw [Nat.div_lt_iff_lt_mul (Nat.two_pow_pos _), ← Nat.pow_add,
      Nat.add_right_comm, Nat.add_comm width, Nat.add_right_comm, Nat.pow_add]
    exact Nat.mul_lt_mul_of_pos_right Nat.lt_log2_self (Nat.two_pow_pos _)
  have positive := Nat.two_pow_pos width
  exact (Nat.log2_eq_iff (by omega)).2 ⟨least, most⟩

/--
A whole number that leaves a remainder of zeros is its rounded digits, scaled.
-/
theorem trimmed_scaled_mul {count scale excess : Nat}
    (width : count.log2 + scale =
      format.mantissaBitsWithoutImplicit + excess) :
    trimmed (count * 2 ^ scale) .exact excess * 2 ^ excess =
      roundWhole format count * 2 ^ scale := by
  rw [trimmed_mul, roundWhole]
  rcases Nat.le_total count.log2 format.mantissaBitsWithoutImplicit with
    short | long
  · rw [Nat.sub_eq_zero_of_le short, Nat.pow_zero,
      roundToMultiple_of_dvd (Nat.one_dvd count)]
    exact roundToMultiple_of_dvd (Nat.dvd_mul_left_of_dvd
      (Nat.pow_dvd_pow 2 (by omega)) count)
  · have split : excess =
        count.log2 - format.mantissaBitsWithoutImplicit + scale := by
      omega
    rw [split, Nat.pow_add]
    exact roundToMultiple_mul (Nat.two_pow_pos scale)

/-- A whole number from digits that it has up to powers of two. -/
theorem nearest_eq_finite {count digits scale excess carry : Nat}
    (nonzero : digits ≠ 0) (scaled : digits * 2 ^ excess = count * 2 ^ scale)
    (carried : digits.log2 = format.mantissaBitsWithoutImplicit + carry)
    (positive : 0 < digits / 2 ^ carry) :
    nearest format count =
      .finite .positive (digits / 2 ^ carry)
        (-(scale : Int) + excess + carry) positive := by
  have countNonzero : count ≠ 0 := by
    rintro rfl
    rw [Nat.zero_mul] at scaled
    exact Nat.mul_ne_zero nonzero (Nat.ne_of_gt (Nat.two_pow_pos _)) scaled
  have width : count.log2 + scale =
      format.mantissaBitsWithoutImplicit + carry + excess := by
    rw [← log2_mul_two_pow countNonzero, ← scaled, log2_mul_two_pow nonzero,
      carried]
  have mantissa :
      count * 2 ^ format.mantissaBitsWithoutImplicit / 2 ^ count.log2 =
        digits / 2 ^ carry := by
    have common := Nat.two_pow_pos
      (excess + format.mantissaBitsWithoutImplicit)
    rw [← Nat.mul_div_mul_right _ _ (Nat.two_pow_pos scale),
      ← Nat.mul_div_mul_right digits _ common, ← Nat.pow_add, ← Nat.pow_add,
      width, Nat.pow_add 2 excess, ← Nat.mul_assoc, scaled]
    congr 1
    · rw [Nat.mul_right_comm]
    · congr 1
      omega
  have exponent : (count.log2 : Int) - format.mantissaBitsWithoutImplicit =
      -(scale : Int) + excess + carry := by
    omega
  rw [nearest, dif_neg countNonzero]
  simp only [mantissa, exponent]

theorem roundWithAccuracy_scaled {count scale : Nat} (nonzero : count ≠ 0)
    (enough : format.mantissaBitsWithoutImplicit ≤ count.log2 + scale)
    (least : format.minExponent ≤ -(scale : Int)) :
    roundWithAccuracy format .positive (count * 2 ^ scale) (-(scale : Int))
        .exact =
      nearest format (roundWhole format count) := by
  obtain ⟨excess, split⟩ : ∃ excess, count.log2 + scale =
      format.mantissaBitsWithoutImplicit + excess :=
    ⟨count.log2 + scale - format.mantissaBitsWithoutImplicit, by omega⟩
  have width : (count * 2 ^ scale).log2 =
      format.mantissaBitsWithoutImplicit + excess := by
    rw [log2_mul_two_pow nonzero, split]
  have bounds := trimmed_bounds .exact
    (Nat.mul_ne_zero nonzero (Nat.ne_of_gt (Nat.two_pow_pos scale))) width
  have power := Nat.two_pow_pos format.mantissaBitsWithoutImplicit
  have digitsNonzero : trimmed (count * 2 ^ scale) .exact excess ≠ 0 := by
    omega
  have digits := (Nat.le_log2 digitsNonzero).2 bounds.1
  obtain ⟨carry, carried⟩ : ∃ carry,
      (trimmed (count * 2 ^ scale) .exact excess).log2 =
        format.mantissaBitsWithoutImplicit + carry :=
    ⟨_ - format.mantissaBitsWithoutImplicit,
      (Nat.add_sub_of_le digits).symm⟩
  have positive :
      0 < trimmed (count * 2 ^ scale) .exact excess / 2 ^ carry :=
    Nat.div_pos (Nat.le_trans (Nat.pow_le_pow_right (by decide) (by omega))
      (Nat.log2_self_le digitsNonzero)) (Nat.two_pow_pos carry)
  rw [nearest_eq_finite digitsNonzero (trimmed_scaled_mul split) carried
    positive]
  exact roundWithAccuracy_eq .positive .exact width least carried positive

/-- A scaled whole number is rounded to the number nearest to it. -/
theorem round_scaled {count scale : Nat} (nonzero : count ≠ 0)
    (holds : format.minExponent ≤ -format.mantissaBitsWithoutImplicit)
    (least : format.minExponent ≤ -(scale : Int)) :
    UnpackedFloat.round format .positive (count * 2 ^ scale) (-(scale : Int)) =
      nearest format (roundWhole format count) := by
  -- Digits that are missing in the mantissa are filled with zeros.
  obtain ⟨zeros, missing⟩ : ∃ zeros,
      zeros = format.mantissaBitsWithoutImplicit - (count.log2 + scale) :=
    ⟨_, rfl⟩
  have target : format.targetExponent
      (totalExponent (count * 2 ^ scale) (-(scale : Int))) =
        count.log2 - format.mantissaBitsWithoutImplicit := by
    rw [Format.targetExponent, totalExponent, log2_mul_two_pow nonzero,
      Format.mantissaBits]
    omega
  have amount : (-(scale : Int) -
      (count.log2 - format.mantissaBitsWithoutImplicit)).toNat = zeros := by
    omega
  have filled : count * 2 ^ scale * 2 ^ zeros = count * 2 ^ (scale + zeros) := by
    rw [Nat.pow_add, Nat.mul_assoc]
  have exponent : -(scale : Int) - zeros = -((scale + zeros : Nat) : Int) := by
    omega
  simp only [UnpackedFloat.round, target, decreaseExponent, amount,
    Nat.shiftLeft_eq, filled, exponent]
  exact roundWithAccuracy_scaled nonzero (by omega) (by omega)

theorem roundWhole_of_isExactIn {count : Nat} (exact : IsExactIn format count) :
    roundWhole format count = count :=
  roundToMultiple_of_dvd exact

theorem isExactIn_zero : IsExactIn format 0 :=
  Nat.dvd_zero _

theorem normalize_scaled {count scale : Nat}
    (holds : format.minExponent ≤ -format.mantissaBitsWithoutImplicit)
    (least : format.minExponent ≤ -(scale : Int)) :
    UnpackedFloat.normalize format ((count * 2 ^ scale : Nat) : Int)
        (-(scale : Int)) .positive =
      nearest format (roundWhole format count) := by
  rcases Nat.eq_zero_or_pos count with rfl | nonzero
  · rw [roundWhole_of_isExactIn isExactIn_zero, nearest_zero, Nat.zero_mul]
    rfl
  · have positive : compare ((count * 2 ^ scale : Nat) : Int) 0 = .gt :=
      Int.compare_eq_gt.2 (Int.natCast_pos.2
        (Nat.mul_pos nonzero (Nat.two_pow_pos scale)))
    simp only [UnpackedFloat.normalize, positive, Int.toNat_natCast]
    exact round_scaled (Nat.ne_of_gt nonzero) holds least

/-! ## Sums and differences -/

/-- Filling the mantissa cuts nothing off an exact whole number. -/
theorem two_pow_log2_dvd {count : Nat} (exact : IsExactIn format count) :
    2 ^ count.log2 ∣ count * 2 ^ format.mantissaBitsWithoutImplicit :=
  calc
    2 ^ count.log2 ∣
        2 ^ (count.log2 - format.mantissaBitsWithoutImplicit +
          format.mantissaBitsWithoutImplicit) :=
      Nat.pow_dvd_pow 2 (by omega)
    _ = 2 ^ (count.log2 - format.mantissaBitsWithoutImplicit) *
          2 ^ format.mantissaBitsWithoutImplicit := Nat.pow_add ..
    _ ∣ count * 2 ^ format.mantissaBitsWithoutImplicit :=
      Nat.mul_dvd_mul_right exact _

/-- An exact whole number is restored from its mantissa. -/
theorem decreaseExponent_nearest {count scale : Nat}
    (exact : IsExactIn format count)
    (enough : format.mantissaBitsWithoutImplicit ≤ count.log2 + scale) :
    (decreaseExponent
        (count * 2 ^ format.mantissaBitsWithoutImplicit / 2 ^ count.log2)
        (count.log2 - format.mantissaBitsWithoutImplicit)
        (-(scale : Int))).1 = count * 2 ^ scale := by
  have amount : ((count.log2 : Int) - format.mantissaBitsWithoutImplicit -
      -(scale : Int)).toNat =
        count.log2 + scale - format.mantissaBitsWithoutImplicit := by
    omega
  have restored : format.mantissaBitsWithoutImplicit +
      (count.log2 + scale - format.mantissaBitsWithoutImplicit) =
        scale + count.log2 := by
    omega
  simp only [decreaseExponent, amount, Nat.shiftLeft_eq]
  rw [Nat.div_mul_right_comm (two_pow_log2_dvd exact), Nat.mul_assoc,
    ← Nat.pow_add, restored, Nat.pow_add, ← Nat.mul_assoc,
    Nat.mul_div_cancel _ (Nat.two_pow_pos _)]

section Pairs

variable {first second : Nat}
  (holds : format.minExponent ≤ -format.mantissaBitsWithoutImplicit)
  (firstExact : IsExactIn format first) (secondExact : IsExactIn format second)
  (short : min first.log2 second.log2 ≤ format.mantissaBitsWithoutImplicit)

include holds firstExact secondExact short

/--
Two exact whole numbers, one of which has no digits in excess, are brought to
the smaller of their exponents without loss.
-/
theorem exists_common_scale : ∃ scale : Nat,
    format.minExponent ≤ -(scale : Int) ∧
    min ((first.log2 : Int) - format.mantissaBitsWithoutImplicit)
      (second.log2 - format.mantissaBitsWithoutImplicit) = -(scale : Int) ∧
    (decreaseExponent
        (first * 2 ^ format.mantissaBitsWithoutImplicit / 2 ^ first.log2)
        (first.log2 - format.mantissaBitsWithoutImplicit)
        (-(scale : Int))).1 = first * 2 ^ scale ∧
    (decreaseExponent
        (second * 2 ^ format.mantissaBitsWithoutImplicit / 2 ^ second.log2)
        (second.log2 - format.mantissaBitsWithoutImplicit)
        (-(scale : Int))).1 = second * 2 ^ scale :=
  ⟨format.mantissaBitsWithoutImplicit - min first.log2 second.log2,
    by omega, by omega, decreaseExponent_nearest firstExact (by omega),
    decreaseExponent_nearest secondExact (by omega)⟩

/-- Their sum is rounded to the nearest number. -/
theorem add_nearest :
    UnpackedFloat.add format (nearest format first) (nearest format second) =
      nearest format (roundWhole format (first + second)) := by
  by_cases firstZero : first = 0
  · rw [firstZero, Nat.zero_add, roundWhole_of_isExactIn secondExact,
      nearest_zero, nearest]
    split
    · rfl
    · rfl
  by_cases secondZero : second = 0
  · rw [secondZero, Nat.add_zero, roundWhole_of_isExactIn firstExact,
      nearest_zero, nearest, dif_neg firstZero]
    rfl
  obtain ⟨scale, least, smaller, firstScaled, secondScaled⟩ :=
    exists_common_scale holds firstExact secondExact short
  have total : ((first * 2 ^ scale : Nat) : Int) + (second * 2 ^ scale : Nat) =
      ((first + second) * 2 ^ scale : Nat) := by
    rw [Nat.add_mul, Int.natCast_add]
  rw [nearest, nearest, dif_neg firstZero, dif_neg secondZero]
  simp only [UnpackedFloat.add, smaller, firstScaled, secondScaled, Sign.apply,
    total]
  exact normalize_scaled holds least

/-- So is their difference, if it is not negative. -/
theorem sub_nearest (ordered : second ≤ first) :
    UnpackedFloat.sub format (nearest format first) (nearest format second) =
      nearest format (roundWhole format (first - second)) := by
  by_cases secondZero : second = 0
  · rw [secondZero, Nat.sub_zero, roundWhole_of_isExactIn firstExact,
      nearest_zero, nearest]
    split
    · rfl
    · rfl
  have firstZero : first ≠ 0 := by omega
  obtain ⟨scale, least, smaller, firstScaled, secondScaled⟩ :=
    exists_common_scale holds firstExact secondExact short
  have difference :
      ((first * 2 ^ scale : Nat) : Int) - (second * 2 ^ scale : Nat) =
        ((first - second) * 2 ^ scale : Nat) := by
    rw [Nat.sub_mul, Int.natCast_sub (Nat.mul_le_mul_right _ ordered)]
  rw [nearest, nearest, dif_neg firstZero, dif_neg secondZero]
  simp only [UnpackedFloat.sub, smaller, firstScaled, secondScaled, Sign.apply,
    difference]
  exact normalize_scaled holds least

end Pairs

/-! ## Storing and comparing -/

theorem unpack_pack_nearest {count : Nat}
    (holds : format.minExponent ≤ -format.mantissaBitsWithoutImplicit)
    (room : count.log2 + format.exponentBias + 1 < 2 ^ format.exponentBits) :
    unpack format (pack format (nearest format count)) =
      nearest format count := by
  by_cases zero : count = 0
  · rw [zero, nearest_zero]
    exact unpack_packedZero
  · rw [nearest, dif_neg zero]
    exact unpack_pack_finite _ (log2_nearest zero _)
      (by have := minExponent_add_bias format; omega) (by omega)

theorem compare_mul {factor : Nat} (positive : 0 < factor)
    (first second : Nat) :
    compare (first * factor) (second * factor) = compare first second := by
  rcases Nat.lt_trichotomy first second with below | rfl | above
  · rw [Nat.compare_eq_lt.2 below,
      Nat.compare_eq_lt.2 (Nat.mul_lt_mul_of_pos_right below positive)]
  · rw [Nat.compare_eq_eq.2 rfl, Nat.compare_eq_eq.2 rfl]
  · rw [Nat.compare_eq_gt.2 above,
      Nat.compare_eq_gt.2 (Nat.mul_lt_mul_of_pos_right above positive)]

theorem lt_of_log2_lt {first second : Nat} (nonzero : second ≠ 0)
    (fewer : first.log2 < second.log2) : first < second :=
  calc
    first < 2 ^ (first.log2 + 1) := Nat.lt_log2_self
    _ ≤ 2 ^ second.log2 := Nat.pow_le_pow_right (by decide) fewer
    _ ≤ second := Nat.log2_self_le nonzero

/-- Exact whole numbers compare like the numbers that they are stored as. -/
theorem compare_nearest {first second : Nat}
    (firstExact : IsExactIn format first)
    (secondExact : IsExactIn format second) :
    (nearest format first).compare (nearest format second) =
      some (compare first second) := by
  by_cases firstZero : first = 0
  · by_cases secondZero : second = 0
    · rw [firstZero, secondZero, nearest_zero]
      rfl
    · rw [firstZero, nearest_zero, nearest, dif_neg secondZero,
        Nat.compare_eq_lt.2 (Nat.pos_of_ne_zero secondZero)]
      rfl
  by_cases secondZero : second = 0
  · rw [secondZero, nearest_zero, nearest, dif_neg firstZero,
      Nat.compare_eq_gt.2 (Nat.pos_of_ne_zero firstZero)]
    rfl
  rw [nearest, nearest, dif_neg firstZero, dif_neg secondZero]
  simp only [UnpackedFloat.compare, Option.some.injEq]
  rcases Nat.lt_trichotomy first.log2 second.log2 with fewer | same | more
  · rw [Int.compare_eq_lt.2 (by omega),
      Nat.compare_eq_lt.2 (lt_of_log2_lt secondZero fewer)]
    rfl
  · -- With equally many digits the mantissas decide.
    rw [same, Int.compare_eq_eq.2 rfl,
      ← compare_mul (Nat.two_pow_pos second.log2),
      Nat.div_mul_cancel (same ▸ two_pow_log2_dvd firstExact),
      Nat.div_mul_cancel (two_pow_log2_dvd secondExact),
      compare_mul (Nat.two_pow_pos _)]
    rfl
  · rw [Int.compare_eq_gt.2 (by omega),
      Nat.compare_eq_gt.2 (lt_of_log2_lt firstZero more)]
    rfl

end ScreenCompare.Unpacked
