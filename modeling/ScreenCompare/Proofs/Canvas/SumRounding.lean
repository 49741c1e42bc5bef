import Mathlib.Algebra.Group.Nat.Defs
import Mathlib.Data.Nat.Log
import ScreenCompare.Canvas.TemplateSearch

/-!
# Rounding sums of squares

A sum is exact if it has no more than 24 significant bits.  Rounding leaves
exact numbers alone, always gives one, and passes none on the way
(`le_round_of_isExact`).  So a sum never shrinks while squares are added to it
(`le_addSquare`).  It does not grow for ever either: once it has reached
2 to the 40th, every square is less than half the distance to the next exact
number, and is lost (`addSquare_le_growthLimit`).
-/

namespace ScreenCompare.TemplateSum

/-! ## Multiples of a unit -/

variable {unit number bound : Nat}

theorem dvd_roundToMultiple (unit number : Nat) :
    unit ∣ roundToMultiple unit number := by
  rw [roundToMultiple]
  split
  · exact Nat.dvd_mul_left unit _
  · exact Nat.dvd_mul_left unit _

theorem roundToMultiple_of_dvd (multiple : unit ∣ number) :
    roundToMultiple unit number = number := by
  rcases multiple with ⟨factor, rfl⟩
  rcases Nat.eq_zero_or_pos unit with rfl | positive
  · simp [roundToMultiple]
  · rw [roundToMultiple, Nat.mul_mod_right, Nat.mul_div_cancel_left _ positive,
      if_neg (by omega), Nat.mul_comm]

/--
A multiple of the unit that is not above a number is not above it when rounded.
-/
theorem le_roundToMultiple (multiple : unit ∣ bound) (below : bound ≤ number) :
    bound ≤ roundToMultiple unit number := by
  have floor : bound ≤ number / unit * unit :=
    calc
      bound = bound / unit * unit := (Nat.div_mul_cancel multiple).symm
      _ ≤ number / unit * unit :=
        Nat.mul_le_mul_right unit (Nat.div_le_div_right below)
  rw [roundToMultiple]
  split
  · exact Nat.le_trans floor (Nat.mul_le_mul_right unit (Nat.le_succ _))
  · exact floor

/--
A multiple of the unit that is not below a number is not below it when rounded.
-/
theorem roundToMultiple_le (multiple : unit ∣ bound) (above : number ≤ bound) :
    roundToMultiple unit number ≤ bound := by
  rcases Nat.eq_or_lt_of_le above with rfl | strictly
  · exact Nat.le_of_eq (roundToMultiple_of_dvd multiple)
  · have ceiling : (number / unit + 1) * unit ≤ bound :=
      calc
        (number / unit + 1) * unit ≤ bound / unit * unit :=
          Nat.mul_le_mul_right unit (Nat.div_lt_div_of_lt_of_dvd multiple
            strictly)
        _ = bound := Nat.div_mul_cancel multiple
    rw [roundToMultiple]
    split
    · exact ceiling
    · exact Nat.le_trans (Nat.mul_le_mul_right unit (Nat.le_succ _)) ceiling

theorem roundToMultiple_mul {factor : Nat} (positive : 0 < factor) :
    roundToMultiple (unit * factor) (number * factor) =
      roundToMultiple unit number * factor := by
  have scaled : 2 * (number % unit * factor) = 2 * (number % unit) * factor :=
    (Nat.mul_assoc ..).symm
  simp only [roundToMultiple, Nat.mul_div_mul_right _ _ positive,
    Nat.mul_mod_mul_right, scaled, Nat.mul_lt_mul_right positive,
    Nat.mul_left_inj (Nat.ne_of_gt positive)]
  split
  · rw [Nat.mul_assoc]
  · rw [Nat.mul_assoc]

/-! ## Exact numbers -/

theorem log2_mono {first second : Nat} (ordered : first ≤ second) :
    first.log2 ≤ second.log2 := by
  rw [Nat.log2_eq_log_two, Nat.log2_eq_log_two]
  exact Nat.log_mono_right ordered

/-- The spacing doubles with every bit after the twenty-fourth. -/
theorem spacing_eq (number : Nat) : spacing number = 2 ^ (number.log2 - 23) := by
  fun_induction spacing number with
  | case1 number small =>
      rcases Nat.eq_zero_or_pos number with rfl | positive
      · rfl
      · have digits := (Nat.log2_lt (Nat.ne_of_gt positive)).2
          (show number < 2 ^ 24 from small)
        rw [show number.log2 - 23 = 0 by omega, Nat.pow_zero]
  | case2 number large inductionHypothesis =>
      have digits := (Nat.le_log2 (by unfold precisionLimit at large; omega)).2
        (show 2 ^ 24 ≤ number from Nat.not_lt.1 large)
      have half : (number / 2).log2 = number.log2 - 1 := by
        unfold precisionLimit at large
        rw [Nat.log2_def number, if_pos (by omega)]
        omega
      rw [inductionHypothesis, half, ← Nat.pow_succ']
      congr 1
      omega

/-- A number has no more than 24 significant bits. -/
def IsExact (number : Nat) : Prop :=
  spacing number ∣ number

theorem round_eq_roundToMultiple (number : Nat) :
    round number = roundToMultiple (spacing number) number := by
  rw [round]
  split
  · next small =>
      rw [spacing, if_pos small, roundToMultiple_of_dvd (Nat.one_dvd number)]
  · rfl

theorem round_of_isExact (exact : IsExact number) : round number = number := by
  rw [round_eq_roundToMultiple, roundToMultiple_of_dvd exact]

theorem spacing_dvd_two_pow {exponent : Nat}
    (large : number.log2 ≤ exponent + 23) : spacing number ∣ 2 ^ exponent := by
  rw [spacing_eq]
  exact Nat.pow_dvd_pow 2 (by omega)

theorem isExact_two_pow (exponent : Nat) : IsExact (2 ^ exponent) :=
  spacing_dvd_two_pow (by rw [Nat.log2_two_pow]; omega)

theorem isExact_of_lt_precisionLimit (small : number < precisionLimit) :
    IsExact number := by
  rw [IsExact, spacing, if_pos small]
  exact Nat.one_dvd number

/-- Rounding up does not pass a power of two. -/
theorem round_le_two_pow {exponent : Nat} (below : number ≤ 2 ^ exponent) :
    round number ≤ 2 ^ exponent := by
  rw [round_eq_roundToMultiple]
  apply roundToMultiple_le (spacing_dvd_two_pow ?_) below
  calc
    number.log2 ≤ (2 ^ exponent).log2 := log2_mono below
    _ = exponent := Nat.log2_two_pow
    _ ≤ exponent + 23 := Nat.le_add_right ..

/-- Rounding down does not pass an exact number. -/
theorem le_round_of_isExact {lower : Nat} (exact : IsExact lower)
    (below : lower ≤ number) : lower ≤ round number := by
  rw [round_eq_roundToMultiple]
  rcases Nat.eq_or_lt_of_le (log2_mono below) with same | fewer
  · apply le_roundToMultiple _ below
    rwa [spacing_eq, ← same, ← spacing_eq]
  · have nonzero : number ≠ 0 := by
      rintro rfl
      exact Nat.not_lt_zero _ fewer
    -- The power of two that opens the range of the number lies between.
    calc
      lower ≤ 2 ^ (lower.log2 + 1) := Nat.le_of_lt Nat.lt_log2_self
      _ ≤ 2 ^ number.log2 := Nat.pow_le_pow_right (by decide) fewer
      _ ≤ roundToMultiple (spacing number) number :=
        le_roundToMultiple (spacing_dvd_two_pow (Nat.le_add_right ..))
          (Nat.log2_self_le nonzero)

theorem isExact_round (number : Nat) : IsExact (round number) := by
  rcases Nat.eq_zero_or_pos number with rfl | positive
  · exact isExact_of_lt_precisionLimit (by decide)
  have nonzero : number ≠ 0 := Nat.ne_of_gt positive
  have lower : 2 ^ number.log2 ≤ round number :=
    le_round_of_isExact (isExact_two_pow _) (Nat.log2_self_le nonzero)
  have upper : round number ≤ 2 ^ (number.log2 + 1) :=
    round_le_two_pow (Nat.le_of_lt Nat.lt_log2_self)
  rcases Nat.lt_or_eq_of_le upper with within | top
  · have same : (round number).log2 = number.log2 :=
      (Nat.log2_eq_iff (by
        have := Nat.two_pow_pos number.log2
        omega)).2 ⟨lower, within⟩
    rw [IsExact, spacing_eq, same, ← spacing_eq, round_eq_roundToMultiple]
    exact dvd_roundToMultiple ..
  · rw [top]
    exact isExact_two_pow _

/-! ## Adding squares -/

open Color (channelStep channelStep_lt)

theorem addSquare_eq (sum : Nat) (first second : UInt8) :
    addSquare sum first second =
      round (sum + channelStep first second * channelStep first second) := by
  have difference : (if second ≤ first then (first - second).toNat
      else (second - first).toNat) = channelStep first second := by
    unfold channelStep
    split
    · next ordered =>
        rw [UInt8.toNat_sub_of_le _ _ ordered]
        have := UInt8.le_iff_toNat_le.1 ordered
        omega
    · next disordered =>
        have ordered := UInt8.le_of_lt (UInt8.not_le.1 disordered)
        rw [UInt8.toNat_sub_of_le _ _ ordered]
        have := UInt8.le_iff_toNat_le.1 ordered
        omega
  rw [addSquare, difference]

theorem isExact_addSquare (sum : Nat) (first second : UInt8) :
    IsExact (addSquare sum first second) := by
  rw [addSquare_eq]
  exact isExact_round _

variable {sum : Nat}

theorem le_addSquare (exact : IsExact sum) (first second : UInt8) :
    sum ≤ addSquare sum first second := by
  rw [addSquare_eq]
  exact le_round_of_isExact exact (Nat.le_add_right ..)

/-- Where sums stop to grow. -/
def growthLimit : Nat := 2 ^ 40

theorem square_channelStep_le (first second : UInt8) :
    channelStep first second * channelStep first second ≤ 255 * 255 :=
  have small := Nat.le_of_lt_succ (channelStep_lt first second)
  Nat.mul_le_mul small small

theorem addSquare_le_growthLimit (within : sum ≤ growthLimit)
    (first second : UInt8) :
    addSquare sum first second ≤ growthLimit := by
  have square := square_channelStep_le first second
  rw [addSquare_eq]
  generalize channelStep first second * channelStep first second = added
    at square ⊢
  rcases Nat.lt_or_ge growthLimit (sum + added) with beyond | below
  · have digits : (sum + added).log2 = 40 :=
      (Nat.log2_eq_iff (by omega)).2
        ⟨Nat.le_of_lt beyond, by unfold growthLimit at within; omega⟩
    have unit : spacing (sum + added) = 131072 := by
      simp only [spacing_eq, digits, Nat.reduceSub, Nat.reducePow]
    rw [round_eq_roundToMultiple, unit, roundToMultiple]
    unfold growthLimit at *
    split <;> omega
  · exact round_le_two_pow below

end ScreenCompare.TemplateSum
