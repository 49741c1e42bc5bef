import ScreenCompare.Proofs.Float.Sign

/-!
# Magnitudes of single-precision numbers

The bits of a single-precision number other than its sign bit, read as a whole
number, are its magnitude.  Magnitudes grow from zero through the finite numbers
to infinity, and what is not a number lies above (`hasMagnitude_unpack`).  So
two numbers compare like their magnitudes with their signs (`compare_eq`).
-/

namespace ScreenCompare.Unpacked

open Float.Model (Format UnpackedFloat)
open Float.Model.UnpackedFloat

/-! ## Fields of the bits -/

theorem toNat_unpackExponent (bits : BitVec 32) :
    (@unpackExponent Format.binary32 bits).toNat =
      bits.toNat / 2 ^ 23 % 2 ^ 8 := by
  rw [unpackExponent_def]
  simp [BitVec.extractLsb'_toNat, Nat.shiftRight_eq_div_pow]

theorem toNat_unpackMantissa (bits : BitVec 32) :
    (@unpackMantissa Format.binary32 bits).toNat =
      bits.toNat % 2 ^ 23 := by
  rw [unpackMantissa_def]
  simp [BitVec.extractLsb'_toNat]

/-- The leading digit of a mantissa counts once it is put back. -/
theorem toNat_one_append_unpackMantissa (bits : BitVec 32) :
    (1#1 ++ @unpackMantissa Format.binary32 bits).toNat =
      2 ^ 23 + bits.toNat % 2 ^ 23 := by
  have leading : (1#1).toNat <<< 23 = 2 ^ 23 * 1 := rfl
  have small : bits.toNat % 2 ^ 23 < 2 ^ 23 := Nat.mod_lt _ (by decide)
  rw [BitVec.toNat_append, toNat_unpackMantissa, leading,
    ← Nat.two_pow_add_eq_or_of_lt small, Nat.mul_one]

theorem ofBitVec_unpackSign (bits : BitVec 32) :
    Sign.ofBitVec (@unpackSign Format.binary32 bits) =
      if bits.toNat < 2 ^ 31 then .positive else .negative := by
  have bound := bits.isLt
  have clear : @unpackSign Format.binary32 bits = 0#1 ↔
      bits.toNat < 2 ^ 31 := by
    rw [unpackSign_def, ← BitVec.toNat_inj]
    simp [BitVec.extractLsb'_toNat, Nat.shiftRight_eq_div_pow]
    omega
  simp only [Sign.ofBitVec, clear]

/-! ## Magnitudes -/

/-- The magnitude that the bits of a value have. -/
def HasMagnitude (magnitude : Nat) : UnpackedFloat → Prop
  | .notANumber => 255 * 2 ^ 23 < magnitude
  | .infinity _ => magnitude = 255 * 2 ^ 23
  | .zero _ => magnitude = 0
  | .finite _ mantissa exponent _ =>
      magnitude < 255 * 2 ^ 23 ∧ mantissa < 2 ^ 24 ∧ -149 ≤ exponent ∧
        (exponent = -149 ∨ 2 ^ 23 ≤ mantissa) ∧
        (magnitude : Int) = (exponent + 149) * 2 ^ 23 + mantissa

theorem HasMagnitude.isNaN_eq_false_iff {magnitude : Nat}
    {value : UnpackedFloat} (has : HasMagnitude magnitude value) :
    value.isNaN = false ↔ magnitude ≤ 255 * 2 ^ 23 := by
  cases value with
  | notANumber => exact ⟨nofun, fun small => absurd has (Nat.not_lt.2 small)⟩
  | infinity => exact ⟨fun _ => Nat.le_of_eq has, fun _ => rfl⟩
  | zero => exact ⟨fun _ => has ▸ Nat.zero_le _, fun _ => rfl⟩
  | finite => exact ⟨fun _ => Nat.le_of_lt has.1, fun _ => rfl⟩

theorem hasMagnitude_unpack (bits : BitVec 32) :
    HasMagnitude (bits.toNat % 2 ^ 31) (unpack Format.binary32 bits) := by
  have exponent := toNat_unpackExponent bits
  have mantissa := toNat_unpackMantissa bits
  have ones : (-1#8 : BitVec 8).toNat = 255 := rfl
  have bias : Format.binary32.exponentBias = 127 := rfl
  simp only [unpack]
  split
  · next full =>
      rw [← BitVec.toNat_inj, exponent, ones] at full
      split
      · next empty =>
          rw [← BitVec.toNat_inj, mantissa, BitVec.toNat_zero] at empty
          simp only [HasMagnitude]
          omega
      · next some =>
          rw [← BitVec.toNat_inj, mantissa, BitVec.toNat_zero] at some
          simp only [HasMagnitude]
          omega
  · next notFull =>
      rw [← BitVec.toNat_inj, exponent, ones] at notFull
      split
      · next none =>
          rw [← BitVec.toNat_inj, exponent, BitVec.toNat_zero] at none
          split
          · next empty =>
              rw [← BitVec.toNat_inj, mantissa, BitVec.toNat_zero] at empty
              simp only [HasMagnitude]
              omega
          · next some =>
              rw [← BitVec.toNat_inj, mantissa, BitVec.toNat_zero] at some
              simp only [HasMagnitude, exponent, mantissa, bias]
              omega
      · next leading =>
          rw [← BitVec.toNat_inj, exponent, BitVec.toNat_zero] at leading
          have full := toNat_one_append_unpackMantissa bits
          simp only [HasMagnitude, exponent, full, bias]
          omega

theorem sign?_unpack {bits : BitVec 32}
    (number : sign? (unpack Format.binary32 bits) ≠ none) :
    sign? (unpack Format.binary32 bits) =
      some (if bits.toNat < 2 ^ 31 then .positive else .negative) := by
  rw [← ofBitVec_unpackSign]
  revert number
  simp only [unpack]
  split
  · split
    · intro _
      rfl
    · intro nothing
      exact absurd rfl nothing
  · split
    · split
      · intro _
        rfl
      · intro _
        rfl
    · intro _
      rfl

/-! ## Comparison -/

/-- Exponents and then mantissas decide like magnitudes. -/
theorem compare_then {firstMantissa secondMantissa : Nat}
    {firstExponent secondExponent : Int} {firstMagnitude secondMagnitude : Nat}
    {firstPositive : 0 < firstMantissa} {secondPositive : 0 < secondMantissa}
    {firstSign secondSign : Sign}
    (first : HasMagnitude firstMagnitude
      (.finite firstSign firstMantissa firstExponent firstPositive))
    (second : HasMagnitude secondMagnitude
      (.finite secondSign secondMantissa secondExponent secondPositive)) :
    (compare firstExponent secondExponent).then
        (compare firstMantissa secondMantissa) =
      compare (firstMagnitude : Int) secondMagnitude := by
  simp only [HasMagnitude] at first second
  rcases Int.lt_trichotomy firstExponent secondExponent with below | rfl | above
  · rw [Int.compare_eq_lt.2 below, Int.compare_eq_lt.2 (by omega)]
    rfl
  · rw [Int.compare_eq_eq.2 rfl]
    show compare firstMantissa secondMantissa = _
    rcases Nat.lt_trichotomy firstMantissa secondMantissa with
      below | rfl | above
    · rw [Nat.compare_eq_lt.2 below, Int.compare_eq_lt.2 (by omega)]
    · rw [Nat.compare_eq_eq.2 rfl, Int.compare_eq_eq.2 (by omega)]
    · rw [Nat.compare_eq_gt.2 above, Int.compare_eq_gt.2 (by omega)]
  · rw [Int.compare_eq_gt.2 above, Int.compare_eq_gt.2 (by omega)]
    rfl

theorem compare_neg_neg (first second : Int) :
    compare (-first) (-second) = (compare first second).swap := by
  rw [Int.compare_swap]
  rcases Int.lt_trichotomy first second with below | rfl | above
  · rw [Int.compare_eq_gt.2 below, Int.compare_eq_gt.2 (by omega)]
  · rw [Int.compare_eq_eq.2 rfl, Int.compare_eq_eq.2 rfl]
  · rw [Int.compare_eq_lt.2 above, Int.compare_eq_lt.2 (by omega)]

theorem some_lt_eq_iff {first second : Int} :
    some Ordering.lt = some (compare first second) ↔ first < second := by
  rw [Option.some.injEq, eq_comm, Int.compare_eq_lt]

theorem some_gt_eq_iff {first second : Int} :
    some Ordering.gt = some (compare first second) ↔ second < first := by
  rw [Option.some.injEq, eq_comm, Int.compare_eq_gt]

/-- Numbers compare like their magnitudes with their signs. -/
theorem compare_eq {first second : UnpackedFloat} {firstSign secondSign : Sign}
    {firstMagnitude secondMagnitude : Nat}
    (firstHas : HasMagnitude firstMagnitude first)
    (secondHas : HasMagnitude secondMagnitude second)
    (firstSigned : sign? first = some firstSign)
    (secondSigned : sign? second = some secondSign) :
    first.compare second =
      some (compare (firstSign.apply firstMagnitude)
        (secondSign.apply secondMagnitude)) := by
  cases first with
  | notANumber => cases firstSigned
  | infinity sign =>
      obtain rfl := Option.some.inj firstSigned
      cases firstHas
      cases second with
      | notANumber => cases secondSigned
      | infinity otherSign =>
          obtain rfl := Option.some.inj secondSigned
          cases secondHas
          cases sign <;> cases otherSign <;> rfl
      | zero otherSign =>
          obtain rfl := Option.some.inj secondSigned
          cases secondHas
          cases sign <;> cases otherSign <;> rfl
      | finite otherSign mantissa exponent positive =>
          obtain rfl := Option.some.inj secondSigned
          have below := secondHas.1
          cases sign <;> cases otherSign <;>
            simp only [UnpackedFloat.compare, Sign.apply, some_lt_eq_iff,
              some_gt_eq_iff] <;> omega
  | zero sign =>
      obtain rfl := Option.some.inj firstSigned
      cases firstHas
      cases second with
      | notANumber => cases secondSigned
      | infinity otherSign =>
          obtain rfl := Option.some.inj secondSigned
          cases secondHas
          cases sign <;> cases otherSign <;> rfl
      | zero otherSign =>
          obtain rfl := Option.some.inj secondSigned
          cases secondHas
          cases sign <;> cases otherSign <;> rfl
      | finite otherSign mantissa exponent positive =>
          obtain rfl := Option.some.inj secondSigned
          obtain ⟨below, _, least, _, total⟩ := secondHas
          cases sign <;> cases otherSign <;>
            simp only [UnpackedFloat.compare, Sign.apply, some_lt_eq_iff,
              some_gt_eq_iff] <;> omega
  | finite sign mantissa exponent positive =>
      obtain rfl := Option.some.inj firstSigned
      have bounds := firstHas
      simp only [HasMagnitude] at bounds
      cases second with
      | notANumber => cases secondSigned
      | infinity otherSign =>
          obtain rfl := Option.some.inj secondSigned
          cases secondHas
          cases sign <;> cases otherSign <;>
            simp only [UnpackedFloat.compare, Sign.apply, some_lt_eq_iff,
              some_gt_eq_iff] <;> omega
      | zero otherSign =>
          obtain rfl := Option.some.inj secondSigned
          cases secondHas
          cases sign <;> cases otherSign <;>
            simp only [UnpackedFloat.compare, Sign.apply, some_lt_eq_iff,
              some_gt_eq_iff] <;> omega
      | finite otherSign otherMantissa otherExponent otherPositive =>
          obtain rfl := Option.some.inj secondSigned
          have otherBounds := secondHas
          simp only [HasMagnitude] at otherBounds
          cases sign <;> cases otherSign <;>
            simp only [UnpackedFloat.compare, Sign.apply, some_lt_eq_iff,
              some_gt_eq_iff, compare_then firstHas secondHas,
              compare_neg_neg] <;> omega

end ScreenCompare.Unpacked
