import ScreenCompare.Proofs.Float.Double

/-!
# Shares

A quotient is rounded to nearest, and one is a number of every format.  So a
positive number divided by one that is not smaller gives a share: a positive
number that does not exceed one (`isShare_div`), even if the exact quotient lies
just below one and is rounded up.  A number divided by itself gives one
(`div_self`).

Counts up to `2 ^ 53` are exact as double-precision numbers, and their quotients
are shares (`Double.share_bounds`).
-/

namespace ScreenCompare

namespace Unpacked

open Float.Model (Format UnpackedFloat)
open Float.Model.UnpackedFloat

variable {format : Format}

/-- The number one, with a full mantissa. -/
def one (format : Format) : UnpackedFloat :=
  .finite .positive (2 ^ format.mantissaBitsWithoutImplicit)
    (-format.mantissaBitsWithoutImplicit) (Nat.two_pow_pos _)

/-- The number is positive and does not exceed one. -/
def IsShare (format : Format) : UnpackedFloat → Prop
  | .finite .positive mantissa exponent _ =>
      exponent < -format.mantissaBitsWithoutImplicit ∨
        exponent = -format.mantissaBitsWithoutImplicit ∧
          mantissa = 2 ^ format.mantissaBitsWithoutImplicit
  | _ => False

theorem isShare_one : IsShare format (one format) :=
  .inr ⟨rfl, rfl⟩

theorem IsShare.exists_finite {value : UnpackedFloat}
    (share : IsShare format value) :
    ∃ mantissa exponent positive,
      value = .finite .positive mantissa exponent positive := by
  cases value with
  | zero sign => cases share
  | infinity sign => cases share
  | notANumber => cases share
  | finite sign mantissa exponent positive =>
      cases sign with
      | negative => cases share
      | positive => exact ⟨mantissa, exponent, positive, rfl⟩

theorem IsShare.zero_le {value : UnpackedFloat}
    (share : IsShare format value) (sign : Sign) :
    (UnpackedFloat.zero sign).le value = true := by
  obtain ⟨mantissa, exponent, positive, rfl⟩ := share.exists_finite
  rfl

theorem IsShare.le_one {value : UnpackedFloat}
    (share : IsShare format value) :
    value.le (one format) = true := by
  obtain ⟨mantissa, exponent, positive, rfl⟩ := share.exists_finite
  rcases share with below | ⟨rfl, rfl⟩
  · simp only [UnpackedFloat.le, UnpackedFloat.compare, one,
      Int.compare_eq_lt.2 below]
    rfl
  · simp only [UnpackedFloat.le, UnpackedFloat.compare, one,
      Int.compare_eq_eq.2, Nat.compare_eq_eq.2]
    rfl

/-! ## Division -/

/-- Rounding does not exceed one if there is room for a carry. -/
theorem isShare_roundWithAccuracy {mantissa excess : Nat} {exponent : Int}
    (accuracy : Accuracy) (nonzero : mantissa ≠ 0)
    (width : mantissa.log2 = format.mantissaBitsWithoutImplicit + excess)
    (least : format.minExponent ≤ exponent)
    (below : exponent + excess + 1 ≤ -format.mantissaBitsWithoutImplicit) :
    IsShare format
      (roundWithAccuracy format .positive mantissa exponent accuracy) := by
  obtain ⟨kept, positive, -, rounded⟩ | rounded :=
    roundWithAccuracy_cases .positive accuracy nonzero width least
  · rw [rounded]
    exact .inl (by omega)
  · rw [rounded]
    rcases Int.lt_or_eq_of_le below with less | equal
    · exact .inl less
    · exact .inr ⟨equal, rfl⟩

variable {mantissa divisorMantissa : Nat} {exponent divisorExponent : Int}
  {positive : 0 < mantissa} {divisorPositive : 0 < divisorMantissa}

/-- A positive number divided by itself is one. -/
theorem div_self (full : mantissa.log2 = format.mantissaBitsWithoutImplicit)
    (room : format.minExponent ≤ -format.mantissaBits) :
    UnpackedFloat.div format (.finite .positive mantissa exponent positive)
        (.finite .positive mantissa exponent positive) =
      one format := by
  have whole : mantissa <<< (1 + format.mantissaBitsWithoutImplicit) /
      mantissa = 2 ^ format.mantissaBitsWithoutImplicit * 2 ^ 1 := by
    rw [Nat.shiftLeft_eq, Nat.mul_div_cancel_left _ positive, Nat.add_comm,
      Nat.pow_add]
  have rest : mantissa <<< (1 + format.mantissaBitsWithoutImplicit) %
      mantissa = 0 := by
    rw [Nat.shiftLeft_eq, Nat.mul_mod_right]
  have restored : exponent - exponent - format.mantissaBits + (1 : Nat) =
      -format.mantissaBitsWithoutImplicit := by
    rw [Format.mantissaBits]
    omega
  have room : format.minExponent ≤
      exponent - exponent - format.mantissaBits := by
    omega
  have rounded := roundWithAccuracy_exact (.positive / .positive) 1
    (Nat.two_pow_pos format.mantissaBitsWithoutImplicit)
    Nat.log2_two_pow room
  rw [div_finite positive positive full full room, whole, rest]
  simp only [restored] at rounded
  exact rounded

/-- A positive number divided by one that is not smaller is a share. -/
theorem isShare_div
    (full : mantissa.log2 = format.mantissaBitsWithoutImplicit)
    (divisorFull :
      divisorMantissa.log2 = format.mantissaBitsWithoutImplicit)
    (ordered : exponent < divisorExponent ∨
      exponent = divisorExponent ∧ mantissa ≤ divisorMantissa)
    (room : format.minExponent ≤
      exponent - divisorExponent - format.mantissaBits) :
    IsShare format
      (UnpackedFloat.div format
        (.finite .positive mantissa exponent positive)
        (.finite .positive divisorMantissa divisorExponent
          divisorPositive)) := by
  obtain ⟨excess, small, width⟩ :=
    log2_quotient (by omega) (by omega) full divisorFull
  have nonzero := quotient_ne_zero width
  have bits : format.mantissaBits =
      1 + format.mantissaBitsWithoutImplicit := rfl
  rcases ordered with below | ⟨rfl, ordered⟩
  · rw [div_finite positive divisorPositive full divisorFull room]
    exact isShare_roundWithAccuracy _ nonzero width room (by omega)
  rcases Nat.lt_or_eq_of_le ordered with less | rfl
  · -- The quotient of the mantissas is below one, so it has no digit more.
    have short :
        mantissa <<< (1 + format.mantissaBitsWithoutImplicit) /
          divisorMantissa < 2 ^ (1 + format.mantissaBitsWithoutImplicit) := by
      rw [Nat.div_lt_iff_lt_mul divisorPositive, Nat.shiftLeft_eq,
        Nat.mul_comm]
      exact Nat.mul_lt_mul_of_pos_left less (Nat.two_pow_pos _)
    have digits := (Nat.log2_lt nonzero).2 short
    rw [div_finite positive divisorPositive full divisorFull room]
    exact isShare_roundWithAccuracy _ nonzero width room (by omega)
  · rw [div_self full (by omega)]
    exact isShare_one

end Unpacked

/-! ## Shares of counts -/

namespace Double

open Float.Model (Format UnpackedFloat)
open Unpacked

variable {part whole : Nat}

theorem le_iff {first second : Float} :
    first ≤ second ↔
      first.toModel.unpack.le second.toModel.unpack = true :=
  decide_eq_true_iff

theorem isShare_quotient (nonzero : part ≠ 0) (ordered : part ≤ whole)
    (small : whole ≤ 2 ^ 53) :
    IsShare Format.binary64
      (Float.ofNat part / Float.ofNat whole).toModel.unpack := by
  have wholeNonzero : whole ≠ 0 := by omega
  have partSmall : part ≤ 2 ^ 53 := by omega
  have digits : part.log2 ≤ whole.log2 :=
    (Nat.le_log2 wholeNonzero).2
      (Nat.le_trans (Nat.log2_self_le nonzero) ordered)
  have most : whole.log2 < 54 := (Nat.log2_lt wholeNonzero).2 (by omega)
  have room : (-1074 : Int) ≤
      (part.log2 - 52 : Int) - (whole.log2 - 52) - 53 := by
    omega
  rw [unpack_quotient nonzero wholeNonzero partSmall small,
    unpack_ofNat_eq_nearest nonzero partSmall,
    unpack_ofNat_eq_nearest wholeNonzero small, nearest, nearest,
    dif_neg nonzero, dif_neg wholeNonzero]
  refine isShare_div (log2_nearest nonzero _) (log2_nearest wholeNonzero _)
    ?_ room
  rcases Nat.lt_or_eq_of_le digits with fewer | same
  · exact .inl (by omega)
  · rw [same]
    exact .inr ⟨rfl, Nat.div_le_div_right (Nat.mul_le_mul_right _ ordered)⟩

/-- The share of a part lies between zero and one. -/
theorem share_bounds (wholeNonzero : whole ≠ 0) (ordered : part ≤ whole)
    (small : whole ≤ 2 ^ 53) :
    0 ≤ Float.ofNat part / Float.ofNat whole ∧
      Float.ofNat part / Float.ofNat whole ≤ 1 := by
  rw [le_iff, le_iff]
  by_cases partZero : part = 0
  · obtain ⟨sign, unpacked⟩ := isZero_share wholeNonzero small
    rw [partZero, unpacked]
    exact ⟨rfl, rfl⟩
  · have share := isShare_quotient partZero ordered small
    exact ⟨share.zero_le .positive, share.le_one⟩

/-- A part has a share unless it is empty. -/
theorem share_beq_zero (wholeNonzero : whole ≠ 0) (ordered : part ≤ whole)
    (small : whole ≤ 2 ^ 53) :
    (Float.ofNat part / Float.ofNat whole == 0) = decide (part = 0) := by
  by_cases partZero : part = 0
  · rw [partZero, decide_eq_true rfl]
    exact (isZero_share wholeNonzero small).beq_zero
  · rw [decide_eq_false partZero]
    exact (isFinite_of_normal (normal_quotient partZero wholeNonzero
      (Nat.le_trans ordered small) small)).2

/-- The whole has share one. -/
theorem share_self (nonzero : whole ≠ 0) (small : whole ≤ 2 ^ 53) :
    Float.ofNat whole / Float.ofNat whole = 1 := by
  show Float.ofModel (.pack (UnpackedFloat.div Format.binary64
    (Float.ofNat whole).toModel.unpack
    (Float.ofNat whole).toModel.unpack)) = 1
  rw [unpack_ofNat_eq_nearest nonzero small, nearest, dif_neg nonzero,
    div_self (log2_nearest nonzero _) (by decide)]
  rfl

end Double

end ScreenCompare
