import ScreenCompare.Proofs.Descriptor.Single
import ScreenCompare.Proofs.Float.Whole

/-!
# Sums of squares in single precision

Adding squares in single precision is adding them as whole numbers with 24
significant bits.  Brightness values and their differences are stored exactly,
so are the squares, and each sum is rounded to the number nearest to it
(`add_square`).  The whole numbers compare like the single-precision ones
(`single_le_iff`), which therefore need not be computed to find a smallest sum.
-/

namespace ScreenCompare.TemplateSum

open Color (channelStep channelStep_lt)
open Float.Model (Format UnpackedFloat)
open Float.Model.UnpackedFloat
open ScreenCompare.Unpacked

/-- A whole number in single precision. -/
def single (count : Nat) : Float32 :=
  .ofModel (.pack (nearest Format.binary32 count))

variable {first second sum : Nat}

theorem isExactIn_binary32 :
    IsExactIn Format.binary32 first ↔ IsExact first := by
  rw [IsExact, spacing_eq]
  rfl

theorem roundWhole_binary32 (number : Nat) :
    roundWhole Format.binary32 number = round number := by
  rw [round_eq_roundToMultiple, spacing_eq]
  rfl

theorem unpack_single (within : first ≤ growthLimit) :
    (single first).toModel.unpack = nearest Format.binary32 first := by
  have digits : first.log2 ≤ 40 :=
    calc
      first.log2 ≤ growthLimit.log2 := log2_mono within
      _ = 40 := Nat.log2_two_pow
  have bias : Format.binary32.exponentBias = 127 := rfl
  have bits : 2 ^ Format.binary32.exponentBits = 256 := rfl
  exact unpack_pack_nearest (by decide) (by omega)

/-! ## Order -/

section Order

variable (firstExact : IsExact first) (firstWithin : first ≤ growthLimit)
  (secondExact : IsExact second) (secondWithin : second ≤ growthLimit)

include firstExact firstWithin secondExact secondWithin

theorem compare_single :
    (single first).toModel.unpack.compare (single second).toModel.unpack =
      some (compare first second) := by
  rw [unpack_single firstWithin, unpack_single secondWithin]
  exact compare_nearest (isExactIn_binary32.2 firstExact)
    (isExactIn_binary32.2 secondExact)

theorem single_le_iff : single first ≤ single second ↔ first ≤ second := by
  have unfolded : single first ≤ single second ↔
      (single first).toModel.unpack.le (single second).toModel.unpack = true :=
    decide_eq_true_iff
  rw [unfolded, UnpackedFloat.le,
    compare_single firstExact firstWithin secondExact secondWithin]
  simp [Nat.isLE_compare]

theorem single_lt_iff : single first < single second ↔ first < second := by
  have unfolded : single first < single second ↔
      (single first).toModel.unpack.lt (single second).toModel.unpack = true :=
    decide_eq_true_iff
  rw [unfolded, UnpackedFloat.lt,
    compare_single firstExact firstWithin secondExact secondWithin]
  simp [Nat.compare_eq_lt]

end Order

/-! ## Squares -/

theorem isExact_toNat (brightness : UInt8) : IsExact brightness.toNat :=
  isExact_of_lt_precisionLimit
    (Nat.lt_trans brightness.toNat_lt (by decide))

theorem toFloat32_eq (brightness : UInt8) :
    brightness.toFloat32 = single brightness.toNat := by
  have scaled := @normalize_scaled Format.binary32 brightness.toNat 0
    (by decide) (by decide)
  rw [Nat.pow_zero, Nat.mul_one, roundWhole_binary32,
    round_of_isExact (isExact_toNat brightness)] at scaled
  exact congrArg (fun value => Float32.ofModel (.pack value)) scaled

/--
The sum of a whole number and one with few digits is rounded to 24 significant
bits.
-/
theorem single_add (exact : IsExact sum) (within : sum ≤ growthLimit)
    (small : second < precisionLimit) :
    single sum + single second = single (round (sum + second)) := by
  have secondExact := isExact_of_lt_precisionLimit small
  have secondWithin : second ≤ growthLimit :=
    Nat.le_trans (Nat.le_of_lt small) (by decide)
  have fits : FitsMantissa Format.binary32 second := small
  have short := Nat.le_trans (Nat.min_le_right sum.log2 second.log2)
    fits.log2_le
  show Float32.ofModel (.pack (UnpackedFloat.add _
    (single sum).toModel.unpack (single second).toModel.unpack)) = _
  rw [unpack_single within, unpack_single secondWithin,
    add_nearest (by decide) (isExactIn_binary32.2 exact)
      (isExactIn_binary32.2 secondExact) short, roundWhole_binary32]
  rfl

theorem single_sub (ordered : second ≤ first) (small : first < 256) :
    single first - single second = single (first - second) := by
  have exact {number : Nat} (bound : number < 256) : IsExact number :=
    isExact_of_lt_precisionLimit (Nat.lt_trans bound (by decide))
  have within {number : Nat} (bound : number < 256) : number ≤ growthLimit :=
    Nat.le_trans (Nat.le_of_lt bound) (by decide)
  have fits : FitsMantissa Format.binary32 first :=
    Nat.lt_trans small (by decide)
  have short := Nat.le_trans (Nat.min_le_left first.log2 second.log2)
    fits.log2_le
  show Float32.ofModel (.pack (UnpackedFloat.sub _
    (single first).toModel.unpack (single second).toModel.unpack)) = _
  rw [unpack_single (within small), unpack_single (within (by omega)),
    sub_nearest (by decide) (isExactIn_binary32.2 (exact small))
      (isExactIn_binary32.2 (exact (by omega))) short ordered,
    roundWhole_binary32, round_of_isExact (exact (by omega))]
  rfl

theorem single_mul_self :
    ∀ count < 256, single count * single count = single (count * count) := by
  decide +kernel

/-- The squared difference of two brightness values is exact. -/
theorem square_sub (first second : UInt8) :
    (first.toFloat32 - second.toFloat32) *
        (first.toFloat32 - second.toFloat32) =
      single (channelStep first second * channelStep first second) := by
  have ordered {high low : UInt8} (above : low.toNat ≤ high.toNat) :
      (high.toFloat32 - low.toFloat32) * (high.toFloat32 - low.toFloat32) =
        single (channelStep high low * channelStep high low) := by
    have step : channelStep high low = high.toNat - low.toNat := by
      unfold channelStep
      omega
    rw [toFloat32_eq, toFloat32_eq, single_sub above high.toNat_lt, ← step,
      single_mul_self _ (channelStep_lt high low)]
  rcases Nat.le_total second.toNat first.toNat with above | above
  · exact ordered above
  · rw [Single.square_sub_comm, ordered above, Color.channelStep_comm]

/--
Adding a squared difference in single precision is adding it to a whole number
with 24 significant bits.
-/
theorem add_square (exact : IsExact sum) (within : sum ≤ growthLimit)
    (first second : UInt8) :
    single sum + (first.toFloat32 - second.toFloat32) *
        (first.toFloat32 - second.toFloat32) =
      single (addSquare sum first second) := by
  rw [square_sub, addSquare_eq, single_add exact within
    (Nat.lt_of_le_of_lt (square_channelStep_le first second) (by decide))]

end ScreenCompare.TemplateSum
