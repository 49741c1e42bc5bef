import ScreenCompare.Proofs.Float.Whole

/-!
# Double-precision numbers

Computing with zeros gives zeros, whichever their signs, and a finite number less
itself is a zero (`isZero_sub_self`).  Whole numbers up to `2 ^ 53` are exact,
and the quotient of two of them is finite (`isFinite_quotient`).
-/

namespace ScreenCompare.Double

open Float.Model (Format UnpackedFloat)
open Float.Model.UnpackedFloat
open ScreenCompare.Unpacked

/-- The number is zero or minus zero. -/
def IsZero (value : Float) : Prop :=
  ∃ sign, value.toModel.unpack = .zero sign

theorem isZero_pack (sign : Sign) :
    IsZero (.ofModel (.pack (.zero sign))) :=
  ⟨sign, unpack_packedZero⟩

theorem unpack_zero : (Float.toModel 0).unpack = .zero .positive := by
  rfl

theorem isZero_zero : IsZero 0 :=
  ⟨.positive, unpack_zero⟩

theorem isZero_minus_zero : IsZero (-0.0) :=
  ⟨.negative, rfl⟩

theorem IsZero.isFinite {value : Float} (zero : IsZero value) :
    value.isFinite = true := by
  obtain ⟨sign, unpacked⟩ := zero
  show value.toModel.unpack.isFinite = true
  rw [unpacked]
  rfl

theorem IsZero.beq_zero {value : Float} (zero : IsZero value) :
    (value == 0) = true := by
  obtain ⟨sign, unpacked⟩ := zero
  show value.toModel.unpack.beq (Float.toModel 0).unpack = true
  rw [unpacked, unpack_zero]
  rfl

/-- A finite number that is not zero, with its mantissa and exponent in view. -/
theorem exists_finite {value : Float} (finite : value.isFinite = true)
    (nonzero : (value == 0) = false) :
    ∃ sign mantissa exponent positive,
      value.toModel.unpack = .finite sign mantissa exponent positive := by
  have unpackedFinite : value.toModel.unpack.isFinite = true := finite
  cases unpacked : value.toModel.unpack with
  | finite sign mantissa exponent positive =>
      exact ⟨sign, mantissa, exponent, positive, rfl⟩
  | zero sign =>
      rw [IsZero.beq_zero ⟨sign, unpacked⟩] at nonzero
      cases nonzero
  | infinity sign =>
      rw [unpacked] at unpackedFinite
      cases unpackedFinite
  | notANumber =>
      rw [unpacked] at unpackedFinite
      cases unpackedFinite

/-! ## Computing with zeros -/

theorem IsZero.add {first second : Float} (firstZero : IsZero first)
    (secondZero : IsZero second) : IsZero (first + second) := by
  obtain ⟨firstSign, firstUnpacked⟩ := firstZero
  obtain ⟨secondSign, secondUnpacked⟩ := secondZero
  show IsZero (.ofModel (.pack (UnpackedFloat.add _
    first.toModel.unpack second.toModel.unpack)))
  rw [firstUnpacked, secondUnpacked, UnpackedFloat.add]
  split
  · exact isZero_pack _
  · exact isZero_pack _

theorem IsZero.mul {first second : Float} (firstZero : IsZero first)
    (secondZero : IsZero second) : IsZero (first * second) := by
  obtain ⟨firstSign, firstUnpacked⟩ := firstZero
  obtain ⟨secondSign, secondUnpacked⟩ := secondZero
  show IsZero (.ofModel (.pack (UnpackedFloat.mul _
    first.toModel.unpack second.toModel.unpack)))
  rw [firstUnpacked, secondUnpacked]
  exact isZero_pack _

theorem IsZero.div {dividend divisor : Float} (zero : IsZero dividend)
    (finite : divisor.isFinite = true) (nonzero : (divisor == 0) = false) :
    IsZero (dividend / divisor) := by
  obtain ⟨sign, dividendUnpacked⟩ := zero
  obtain ⟨divisorSign, mantissa, exponent, positive, divisorUnpacked⟩ :=
    exists_finite finite nonzero
  show IsZero (.ofModel (.pack (UnpackedFloat.div _
    dividend.toModel.unpack divisor.toModel.unpack)))
  rw [dividendUnpacked, divisorUnpacked]
  exact isZero_pack _

/-- Zero and minus zero are the same to subtract from. -/
theorem IsZero.sub_eq {zero value : Float} (isZero : IsZero zero)
    (finite : value.isFinite = true) (nonzero : (value == 0) = false) :
    zero - value = 0 - value := by
  obtain ⟨sign, zeroUnpacked⟩ := isZero
  obtain ⟨valueSign, mantissa, exponent, positive, valueUnpacked⟩ :=
    exists_finite finite nonzero
  show Float.ofModel (.pack (UnpackedFloat.sub _
      zero.toModel.unpack value.toModel.unpack)) =
    .ofModel (.pack (UnpackedFloat.sub _
      (Float.toModel 0).unpack value.toModel.unpack))
  rw [zeroUnpacked, unpack_zero, valueUnpacked]
  rfl

theorem isZero_sub_self {value : Float} (finite : value.isFinite = true)
    (nonzero : (value == 0) = false) : IsZero (value - value) := by
  obtain ⟨sign, mantissa, exponent, positive, unpacked⟩ :=
    exists_finite finite nonzero
  show IsZero (.ofModel (.pack (UnpackedFloat.sub _
    value.toModel.unpack value.toModel.unpack)))
  rw [unpacked]
  simp only [UnpackedFloat.sub, Int.sub_self]
  exact isZero_pack _

/-! ## Whole numbers -/

theorem toNat_toUInt64 {count : Nat} (small : count < 2 ^ 53) :
    count.toUInt64.toNat = count :=
  UInt64.toNat_ofNat_of_lt' (Nat.lt_trans small (by decide))

theorem log2_le {count : Nat} (nonzero : count ≠ 0)
    (small : count < 2 ^ 53) : count.log2 ≤ 52 :=
  Nat.le_of_lt_succ ((Nat.log2_lt nonzero).2 small)

/-- A whole number with its digits moved up to fill the mantissa. -/
def wholeNumber (count : Nat) (nonzero : count ≠ 0) : UnpackedFloat :=
  .finite .positive (count * 2 ^ (52 - count.log2)) (count.log2 - 52)
    (Nat.mul_pos (Nat.pos_of_ne_zero nonzero) (Nat.two_pow_pos _))

theorem wholeNumber_eq {count : Nat} (nonzero : count ≠ 0) :
    wholeNumber count nonzero = whole Format.binary64 count := by
  rw [whole_of_ne_zero nonzero]
  rfl

theorem normal_wholeNumber {count : Nat} (nonzero : count ≠ 0)
    (small : count < 2 ^ 53) :
    Normal Format.binary64 (-52) 0 (wholeNumber count nonzero) := by
  rw [wholeNumber_eq]
  exact normal_whole nonzero small

theorem unpack_pack_wholeNumber {count : Nat} (nonzero : count ≠ 0)
    (small : count < 2 ^ 53) :
    (Float.Model.pack (wholeNumber count nonzero)).unpack =
      wholeNumber count nonzero := by
  rw [wholeNumber_eq]
  exact unpack_pack_whole ⟨by decide, by decide⟩ small

theorem unpack_ofUInt64 {count : Nat} (nonzero : count ≠ 0)
    (small : count < 2 ^ 53) :
    (Float.Model.ofUInt64 count.toUInt64).unpack =
      wholeNumber count nonzero := by
  have positive : compare (count : Int) 0 = .gt :=
    Int.compare_eq_gt.2 (by omega)
  have digits : count.log2 ≤ Format.binary64.mantissaBitsWithoutImplicit :=
    log2_le nonzero small
  have converted :
      UnpackedFloat.normalize Format.binary64 (count : Int) 0 .positive =
        wholeNumber count nonzero := by
    simp only [UnpackedFloat.normalize, positive, Int.toNat_natCast]
    exact round_eq .positive nonzero digits (by decide)
  show (Float.Model.pack (UnpackedFloat.normalize Format.binary64
    (count.toUInt64.toNat : Int) 0 .positive)).unpack = _
  rw [toNat_toUInt64 small, converted, unpack_pack_wholeNumber nonzero small]

theorem unpack_one : (Float.Model.ofBits 0x3FF0000000000000).unpack =
    .finite .positive (2 ^ 52) (-52) (by decide) := by
  rfl

/-- A whole number times one is itself. -/
theorem wholeNumber_mul_one {count : Nat} (nonzero : count ≠ 0)
    (small : count < 2 ^ 53) :
    UnpackedFloat.mul Format.binary64 (wholeNumber count nonzero)
        (.finite .positive (2 ^ 52) (-52) (by decide)) =
      wholeNumber count nonzero := by
  have full := (normal_wholeNumber nonzero small).1
  have within : Format.binary64.minExponent ≤
      (count.log2 : Int) - 52 + -52 := by
    show (-1074 : Int) ≤ _
    omega
  have kept := roundWithAccuracy_exact (.positive * .positive) 52
    (Nat.mul_pos (Nat.pos_of_ne_zero nonzero)
      (Nat.two_pow_pos (52 - count.log2))) full within
  have restored : (count.log2 : Int) - 52 + -52 + (52 : Nat) =
      count.log2 - 52 := by
    omega
  simp only [restored] at kept
  exact kept

theorem ofNat_eq {count : Nat} (small : count < 2 ^ 53) :
    Float.ofNat count = .ofModel (.mul (.ofUInt64 count.toUInt64)
      (.ofBits 0x3FF0000000000000)) := by
  show Float.ofScientific count false 0 = _
  rw [Float.ofScientific, dif_pos ⟨small, by decide⟩]
  rfl

theorem unpack_ofNat {count : Nat} (nonzero : count ≠ 0)
    (small : count < 2 ^ 53) :
    (Float.ofNat count).toModel.unpack = wholeNumber count nonzero := by
  rw [ofNat_eq small]
  show (Float.Model.pack (UnpackedFloat.mul Format.binary64
    (Float.Model.ofUInt64 count.toUInt64).unpack _)).unpack = _
  rw [unpack_ofUInt64 nonzero small, unpack_one,
    wholeNumber_mul_one nonzero small, unpack_pack_wholeNumber nonzero small]

/--
A whole number up to `2 ^ 53` is the double-precision number nearest to it.
-/
theorem unpack_ofNat_eq_nearest {count : Nat} (nonzero : count ≠ 0)
    (small : count ≤ 2 ^ 53) :
    (Float.ofNat count).toModel.unpack = nearest Format.binary64 count := by
  rcases Nat.lt_or_eq_of_le small with below | rfl
  · have fits : FitsMantissa Format.binary64 count := below
    rw [unpack_ofNat nonzero below, wholeNumber_eq, nearest_eq_whole fits]
  · rfl

theorem normal_ofNat {count : Nat} (nonzero : count ≠ 0)
    (small : count ≤ 2 ^ 53) :
    Normal Format.binary64 (-52) 1 (Float.ofNat count).toModel.unpack := by
  have digits : count.log2 < 54 := (Nat.log2_lt nonzero).2 (by omega)
  have least : (-52 : Int) ≤ count.log2 - 52 := by omega
  have most : (count.log2 : Int) - 52 ≤ 1 := by omega
  rw [unpack_ofNat_eq_nearest nonzero small, nearest, dif_neg nonzero]
  exact ⟨log2_nearest nonzero _, least, most⟩

/-! ## Quotients of whole numbers -/

theorem isFinite_of_normal {value : Float} {least most : Int}
    (normal : Normal Format.binary64 least most value.toModel.unpack) :
    value.isFinite = true ∧ (value == 0) = false := by
  obtain ⟨sign, mantissa, exponent, positive, unpacked, _⟩ :=
    normal.exists_finite
  show value.toModel.unpack.isFinite = true ∧
    value.toModel.unpack.beq (Float.toModel 0).unpack = false
  rw [unpacked, unpack_zero]
  cases sign with
  | negative => exact ⟨rfl, rfl⟩
  | positive => exact ⟨rfl, rfl⟩

section Quotients

variable {part whole : Nat} (partNonzero : part ≠ 0)
  (wholeNonzero : whole ≠ 0) (partSmall : part ≤ 2 ^ 53)
  (wholeSmall : whole ≤ 2 ^ 53)

include partNonzero wholeNonzero partSmall wholeSmall

theorem normal_div_ofNat :
    Normal Format.binary64 (-106) 2
      (UnpackedFloat.div Format.binary64 (Float.ofNat part).toModel.unpack
        (Float.ofNat whole).toModel.unpack) :=
  normal_div (normal_ofNat partNonzero partSmall)
    (normal_ofNat wholeNonzero wholeSmall) (by decide)

/-- The quotient of whole numbers is stored without a second rounding. -/
theorem unpack_quotient :
    (Float.ofNat part / Float.ofNat whole).toModel.unpack =
      UnpackedFloat.div Format.binary64 (Float.ofNat part).toModel.unpack
        (Float.ofNat whole).toModel.unpack :=
  ((normal_div_ofNat partNonzero wholeNonzero partSmall wholeSmall).mono
    (by decide) (Int.le_refl _)).unpack_pack (by decide)

theorem normal_quotient :
    Normal Format.binary64 (-106) 2
      (Float.ofNat part / Float.ofNat whole).toModel.unpack := by
  rw [unpack_quotient partNonzero wholeNonzero partSmall wholeSmall]
  exact normal_div_ofNat partNonzero wholeNonzero partSmall wholeSmall

end Quotients

/-- The share of nothing is zero. -/
theorem isZero_share {whole : Nat} (nonzero : whole ≠ 0)
    (small : whole ≤ 2 ^ 53) :
    IsZero (Float.ofNat 0 / Float.ofNat whole) := by
  have divisor := isFinite_of_normal (normal_ofNat nonzero small)
  exact isZero_zero.div divisor.1 divisor.2

theorem isFinite_quotient {part whole : Nat} (wholeNonzero : whole ≠ 0)
    (partSmall : part ≤ 2 ^ 53) (wholeSmall : whole ≤ 2 ^ 53) :
    (Float.ofNat part / Float.ofNat whole).isFinite = true := by
  by_cases partZero : part = 0
  · rw [partZero]
    exact (isZero_share wholeNonzero wholeSmall).isFinite
  · exact (isFinite_of_normal
      (normal_quotient partZero wholeNonzero partSmall wholeSmall)).1

end ScreenCompare.Double
