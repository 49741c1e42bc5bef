import ScreenCompare.Proofs.Float.Nearest

/-!
# Whole numbers in floating point

A whole number is stored with its digits moved up to fill the mantissa.  If it
has no more digits than the mantissa, nothing is lost: it is read back as it was
(`unpack_pack_whole`), and the sum of two whole numbers is exact as long as it
has as few digits (`add_whole`).
-/

namespace ScreenCompare.Unpacked

open Float.Model (Format UnpackedFloat)
open Float.Model.UnpackedFloat

variable {format : Format}

/-- A whole number with its digits moved up to fill the mantissa. -/
def whole (format : Format) (count : Nat) : UnpackedFloat :=
  if nonzero : count = 0 then .zero .positive
  else
    .finite .positive
      (count * 2 ^ (format.mantissaBitsWithoutImplicit - count.log2))
      (count.log2 - format.mantissaBitsWithoutImplicit)
      (Nat.mul_pos (Nat.pos_of_ne_zero nonzero) (Nat.two_pow_pos _))

theorem whole_zero : whole format 0 = .zero .positive := by
  rw [whole, dif_pos rfl]

theorem whole_of_ne_zero {count : Nat} (nonzero : count ≠ 0) :
    whole format count =
      .finite .positive
        (count * 2 ^ (format.mantissaBitsWithoutImplicit - count.log2))
        (count.log2 - format.mantissaBitsWithoutImplicit)
        (Nat.mul_pos (Nat.pos_of_ne_zero nonzero) (Nat.two_pow_pos _)) := by
  rw [whole, dif_neg nonzero]

/-- A whole number has few enough digits to be stored exactly. -/
def FitsMantissa (format : Format) (count : Nat) : Prop :=
  count < 2 ^ format.mantissaBits

theorem FitsMantissa.mono {count larger : Nat}
    (fits : FitsMantissa format larger) (below : count ≤ larger) :
    FitsMantissa format count :=
  Nat.lt_of_le_of_lt below fits

theorem FitsMantissa.log2_le {count : Nat}
    (fits : FitsMantissa format count) :
    count.log2 ≤ format.mantissaBitsWithoutImplicit := by
  by_cases zero : count = 0
  · rw [zero, Nat.log2_zero]
    exact Nat.zero_le _
  · have digits := (Nat.log2_lt zero).2 fits
    rw [Format.mantissaBits] at digits
    omega

/-! ## Storing -/

theorem log2_filled {count : Nat} (nonzero : count ≠ 0)
    (fits : FitsMantissa format count) :
    (count * 2 ^ (format.mantissaBitsWithoutImplicit - count.log2)).log2 =
      format.mantissaBitsWithoutImplicit := by
  rw [log2_mul_two_pow nonzero]
  exact Nat.add_sub_of_le (fits.log2_le)

theorem normal_whole {count : Nat} (nonzero : count ≠ 0)
    (fits : FitsMantissa format count) :
    Normal format (-format.mantissaBitsWithoutImplicit) 0
      (whole format count) := by
  have digits := fits.log2_le
  rw [whole_of_ne_zero nonzero]
  exact ⟨log2_filled nonzero fits, by omega, by omega⟩

/-- The format has exponents for all whole numbers that fit the mantissa. -/
structure HoldsWhole (format : Format) : Prop where
  least : format.minExponent ≤ -format.mantissaBitsWithoutImplicit
  most : format.exponentBias + format.mantissaBitsWithoutImplicit + 1 <
    2 ^ format.exponentBits

theorem unpack_pack_whole (holds : HoldsWhole format) {count : Nat}
    (fits : FitsMantissa format count) :
    unpack format (pack format (whole format count)) = whole format count := by
  by_cases nonzero : count = 0
  · rw [nonzero, whole_zero]
    exact unpack_packedZero
  · have room := holds.most
    exact ((normal_whole nonzero fits).mono holds.least
      (Int.le_refl 0)).unpack_pack (by omega)

/-! ## Sums -/

theorem FitsMantissa.isExactIn {count : Nat}
    (fits : FitsMantissa format count) : IsExactIn format count := by
  by_cases zero : count = 0
  · rw [zero]
    exact isExactIn_zero
  · rw [IsExactIn, Nat.sub_eq_zero_of_le (fits.log2_le), Nat.pow_zero]
    exact Nat.one_dvd count

/-- A whole number that fits the mantissa is the number nearest to itself. -/
theorem nearest_eq_whole {count : Nat} (fits : FitsMantissa format count) :
    nearest format count = whole format count := by
  by_cases zero : count = 0
  · rw [zero, nearest_zero, whole_zero]
  · have digits := fits.log2_le
    have mantissa :
        count * 2 ^ format.mantissaBitsWithoutImplicit / 2 ^ count.log2 =
          count * 2 ^ (format.mantissaBitsWithoutImplicit - count.log2) := by
      rw [Nat.mul_div_assoc _ (Nat.pow_dvd_pow 2 digits),
        Nat.pow_div digits (by decide)]
    rw [nearest, dif_neg zero, whole_of_ne_zero zero]
    simp only [mantissa]

/-- The sum of two whole numbers is exact if it fits the mantissa. -/
theorem add_whole (holds : HoldsWhole format) {first second : Nat}
    (fits : FitsMantissa format (first + second)) :
    UnpackedFloat.add format (whole format first) (whole format second) =
      whole format (first + second) := by
  have firstFits := fits.mono (Nat.le_add_right first second)
  have secondFits := fits.mono (Nat.le_add_left second first)
  have short := Nat.le_trans (Nat.min_le_left first.log2 second.log2)
    firstFits.log2_le
  rw [← nearest_eq_whole firstFits, ← nearest_eq_whole secondFits,
    add_nearest holds.least firstFits.isExactIn secondFits.isExactIn short,
    roundWhole_of_isExactIn fits.isExactIn, nearest_eq_whole fits]

end ScreenCompare.Unpacked
