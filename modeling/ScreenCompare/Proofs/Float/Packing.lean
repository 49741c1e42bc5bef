import Mathlib

/-!
# Packing floating-point numbers into bits

A floating-point number is computed with in unpacked form and stored as a sign
bit, an exponent field and a mantissa field.  Storing loses nothing for normal
numbers, which have a full mantissa and an exponent in range
(`Normal.unpack_pack`).  The statements hold for every format.

The library's own lemmas about stored numbers, such as the one that reads a sign
back, come with no single file of it, so all of it is imported.
-/

namespace ScreenCompare.Unpacked

open Float.Model (Format UnpackedFloat)
open Float.Model.UnpackedFloat

variable {format : Format}

/-! ## Fields -/

theorem toNat_field {value : Nat}
    (bound : value + 1 < 2 ^ format.exponentBits) :
    (BitVec.ofNat format.exponentBits value).toNat = value := by
  rw [BitVec.toNat_ofNat]
  exact Nat.mod_eq_of_lt (by omega)

theorem field_ne_allOnes {value : Nat}
    (bound : value + 1 < 2 ^ format.exponentBits) :
    BitVec.ofNat format.exponentBits value ≠ -1#_ := by
  intro equal
  have values := congrArg BitVec.toNat equal
  rw [toNat_field bound, BitVec.neg_one_eq_allOnes,
    BitVec.toNat_allOnes] at values
  omega

theorem field_ne_zero {value : Nat}
    (bound : value + 1 < 2 ^ format.exponentBits) (positive : 0 < value) :
    BitVec.ofNat format.exponentBits value ≠ 0#_ := by
  intro equal
  have values := congrArg BitVec.toNat equal
  rw [toNat_field bound, BitVec.toNat_zero] at values
  omega

/-- The leading digit of a full mantissa is implied by the field. -/
theorem toNat_one_append {width mantissa : Nat} (nonzero : mantissa ≠ 0)
    (full : mantissa.log2 = width) :
    (1#1 ++ BitVec.ofNat width mantissa).toNat = mantissa := by
  have lower := Nat.log2_self_le nonzero
  have upper := Nat.lt_log2_self (n := mantissa)
  rw [full] at lower upper
  rw [Nat.pow_succ] at upper
  have leading : (1#1).toNat <<< width = 2 ^ width := by
    rw [Nat.shiftLeft_eq]
    exact Nat.one_mul _
  have rest : mantissa % 2 ^ width = mantissa - 2 ^ width := by
    rw [Nat.mod_eq_sub_mod lower]
    exact Nat.mod_eq_of_lt (by omega)
  rw [BitVec.toNat_append, leading, BitVec.toNat_ofNat, Nat.or_comm,
    Nat.or_two_pow_eq_add_of_lt (Nat.mod_lt _ (Nat.two_pow_pos width)), rest]
  omega

/-! ## Storing and reading back -/

theorem unpack_pack_finite {sign : Sign} {mantissa : Nat} {exponent : Int}
    (positive : 0 < mantissa)
    (full : mantissa.log2 = format.mantissaBitsWithoutImplicit)
    (above : 0 < exponent + format.exponentBias +
      format.mantissaBitsWithoutImplicit)
    (below : (exponent + format.exponentBias +
      format.mantissaBitsWithoutImplicit).toNat + 1 <
        2 ^ format.exponentBits) :
    unpack format (pack format (.finite sign mantissa exponent positive)) =
      .finite sign mantissa exponent positive := by
  have packed : pack format (.finite sign mantissa exponent positive) =
      packComponents format sign
        (BitVec.ofNat _ (exponent + format.exponentBias +
          format.mantissaBitsWithoutImplicit).toNat)
        (BitVec.ofNat _ mantissa) := by
    simp only [pack]
    rw [if_neg (by omega),
      if_pos (by rw [full, Format.mantissaBits, Nat.add_comm])]
  rw [packed]
  simp only [unpack, unpackMantissa_packComponents,
    unpackExponent_packComponents, unpackSign_packComponents,
    Sign.ofBitVec_toBitVec]
  rw [if_neg (field_ne_allOnes below),
    if_neg (field_ne_zero below (by omega))]
  congr 1
  · exact toNat_one_append (by omega) full
  · rw [toNat_field below]
    omega

/-! ## Normal numbers -/

/--
The number is finite with a full mantissa, and its exponent lies between the
bounds.
-/
def Normal (format : Format) (least most : Int) : UnpackedFloat → Prop
  | .finite _ mantissa exponent _ =>
      mantissa.log2 = format.mantissaBitsWithoutImplicit ∧
        least ≤ exponent ∧ exponent ≤ most
  | _ => False

/-- A normal number is finite, with its mantissa and exponent in view. -/
theorem Normal.exists_finite {least most : Int} {value : UnpackedFloat}
    (normal : Normal format least most value) :
    ∃ sign mantissa exponent positive,
      value = .finite sign mantissa exponent positive ∧
        mantissa.log2 = format.mantissaBitsWithoutImplicit ∧
          least ≤ exponent ∧ exponent ≤ most := by
  cases value with
  | finite sign mantissa exponent positive =>
      exact ⟨sign, mantissa, exponent, positive, rfl, normal⟩
  | zero sign => cases normal
  | infinity sign => cases normal
  | notANumber => cases normal

theorem Normal.mono {least most lower upper : Int} {value : UnpackedFloat}
    (normal : Normal format least most value)
    (below : lower ≤ least) (above : most ≤ upper) :
    Normal format lower upper value := by
  obtain ⟨sign, mantissa, exponent, positive, rfl, full, atLeast, atMost⟩ :=
    normal.exists_finite
  exact ⟨full, Int.le_trans below atLeast, Int.le_trans atMost above⟩

/-- The least exponent of a format is stored as 1. -/
theorem minExponent_add_bias (format : Format) :
    format.minExponent + format.exponentBias +
      format.mantissaBitsWithoutImplicit = 1 := by
  have power := Nat.two_pow_pos (format.exponentBits - 1)
  have cast : (2 : Int) ^ (format.exponentBits - 1) =
      ((2 ^ (format.exponentBits - 1) : Nat) : Int) := by
    rw [Int.natCast_pow]
    rfl
  rw [Format.minExponent, Format.exponentBias, Format.mantissaBits, cast]
  omega

theorem Normal.unpack_pack {most : Int} {value : UnpackedFloat}
    (normal : Normal format format.minExponent most value)
    (room : (most + format.exponentBias +
      format.mantissaBitsWithoutImplicit).toNat + 1 <
        2 ^ format.exponentBits) :
    unpack format (pack format value) = value := by
  have bias := minExponent_add_bias format
  obtain ⟨sign, mantissa, exponent, positive, rfl, full, atLeast, atMost⟩ :=
    normal.exists_finite
  exact unpack_pack_finite positive full (by omega) (by omega)

end ScreenCompare.Unpacked
