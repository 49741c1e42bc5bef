import ScreenCompare.Proofs.Descriptor.Single
import ScreenCompare.Proofs.Float.Whole

/-!
# Distances of rows of zeros and ones

The squared differences of two rows of zeros and ones are zeros and ones again,
and their sum counts the columns in which the rows differ, without rounding
(`addSquares_of_bits`).  Up to 256 the roots of these counts grow with them
(`height_root_lt`), and the root of 1 is 1.  So binary rows are compared
by their distances as they are by the number of columns in which they differ
(`distance_le_iff`, `distance_le_one_iff`).
-/

namespace ScreenCompare.Single

open Float.Model (Format UnpackedFloat)
open Float.Model.UnpackedFloat
open ScreenCompare.Unpacked

/-! ## Zeros and ones -/

/-- The number equals 0 or 1.  Minus zero equals 0. -/
def IsBit (number : Single) : Prop :=
  number.Equals zero ∨ number.Equals one

/-- A row of 256 zeros and ones. -/
structure IsBinaryRow (row : List Single) : Prop where
  length_eq : row.length = 256
  bits : ∀ number ∈ row, number.IsBit

/-- The number of columns in which two rows differ. -/
def hamming (first second : List Single) : Nat :=
  (first.zip second).countP fun pair => !decide (pair.1.Equals pair.2)

theorem eq_of_toNat_bits_eq {first second : Single}
    (same : first.bits.toNat = second.bits.toNat) : first = second := by
  cases first
  cases second
  rw [mk.injEq]
  exact UInt32.toNat_inj.1 same

theorem eq_of_equals_zero {number : Single} (equal : number.Equals zero) :
    number = zero ∨ number = { bits := 0x80000000 } := by
  have flat : number.height = 0 := (equals_iff.1 equal).2.2
  have bound : number.bits.toNat < 2 ^ 32 := number.bits.toBitVec.isLt
  have empty : number.magnitude = 0 := by
    rw [height] at flat
    split at flat <;> omega
  rw [magnitude] at empty
  have either : number.bits.toNat = 0 ∨ number.bits.toNat = 2 ^ 31 := by
    omega
  rcases either with none | sign
  · exact .inl (eq_of_toNat_bits_eq none)
  · exact .inr (eq_of_toNat_bits_eq sign)

theorem eq_of_equals_one {number : Single} (equal : number.Equals one) :
    number = one := by
  have tall : number.height = 0x3f800000 := (equals_iff.1 equal).2.2
  have bound : number.bits.toNat < 2 ^ 32 := number.bits.toBitVec.isLt
  rw [height] at tall
  split at tall
  · omega
  · next positive =>
      rw [isNegative, decide_eq_true_eq] at positive
      rw [magnitude] at tall
      exact eq_of_toNat_bits_eq (show number.bits.toNat = 0x3f800000 by omega)

theorem eq_of_isBit {number : Single} (bit : number.IsBit) :
    number = zero ∨ number = { bits := 0x80000000 } ∨ number = one := by
  rcases bit with isZero | isOne
  · rcases eq_of_equals_zero isZero with equal | equal
    · exact .inl equal
    · exact .inr (.inl equal)
  · exact .inr (.inr (eq_of_equals_one isOne))

theorem isFiniteRow_of_bits {row : List Single}
    (bits : ∀ number ∈ row, number.IsBit) : IsFiniteRow row := by
  intro number member
  rcases eq_of_isBit (bits number member) with rfl | rfl | rfl
  · decide
  · decide
  · decide

/-! ## Counts -/

/-- A count as a single-precision number. -/
def ofCount (count : Nat) : Float32 :=
  .ofModel (.pack (whole Format.binary32 count))

theorem holdsWhole_binary32 : HoldsWhole Format.binary32 where
  least := by decide
  most := by decide

theorem ofCount_add {first second : Nat} (small : first + second < 2 ^ 24) :
    ofCount first + ofCount second = ofCount (first + second) := by
  have fits : FitsMantissa Format.binary32 (first + second) := small
  show Float32.ofModel (.pack (UnpackedFloat.add _ (unpack _ (pack _ _))
    (unpack _ (pack _ _)))) = _
  rw [unpack_pack_whole holdsWhole_binary32 (fits.mono (Nat.le_add_right ..)),
    unpack_pack_whole holdsWhole_binary32 (fits.mono (Nat.le_add_left ..)),
    add_whole holdsWhole_binary32 fits]
  rfl

/-- The squared difference of two bits counts whether they differ. -/
theorem square_sub_of_isBit {first second : Single} (firstBit : first.IsBit)
    (secondBit : second.IsBit) :
    (first.value - second.value) * (first.value - second.value) =
      ofCount (if first.Equals second then 0 else 1) := by
  rcases eq_of_isBit firstBit with rfl | rfl | rfl <;>
    rcases eq_of_isBit secondBit with rfl | rfl | rfl <;> decide +kernel

theorem hamming_cons (first second : Single) (firsts seconds : List Single) :
    hamming (first :: firsts) (second :: seconds) =
      (if first.Equals second then 0 else 1) + hamming firsts seconds := by
  rw [hamming, List.zip_cons_cons, List.countP_cons, ← hamming, Nat.add_comm]
  congr 1
  split <;> split <;> simp_all

theorem hamming_le_length (first second : List Single) :
    hamming first second ≤ first.length := by
  have bound := List.countP_le_length
    (p := fun pair : Single × Single => !decide (pair.1.Equals pair.2))
    (l := first.zip second)
  rw [List.length_zip] at bound
  exact Nat.le_trans bound (Nat.min_le_left ..)

/--
Adding the squared differences of bits to a count adds the columns in which the
rows differ.
-/
theorem addSquares_of_bits {firsts seconds : List Single} {count : Nat}
    (firstBits : ∀ number ∈ firsts, number.IsBit)
    (secondBits : ∀ number ∈ seconds, number.IsBit)
    (small : count + firsts.length < 2 ^ 24) :
    addSquares firsts seconds (ofCount count) =
      ofCount (count + hamming firsts seconds) := by
  induction firsts generalizing seconds count with
  | nil =>
      cases seconds with
      | nil => rfl
      | cons => rfl
  | cons first firsts inductionHypothesis =>
      cases seconds with
      | nil => rfl
      | cons second seconds =>
          rw [List.forall_mem_cons] at firstBits secondBits
          rw [List.length_cons] at small
          have step : (if first.Equals second then 0 else 1) ≤ 1 := by
            split <;> decide
          rw [addSquares]
          simp only [square_sub_of_isBit firstBits.1 secondBits.1]
          rw [ofCount_add (by omega),
            inductionHypothesis firstBits.2 secondBits.2 (by omega),
            hamming_cons, Nat.add_assoc]

/-! ## Distances -/

theorem minus_zero_add_ofCount {count : Nat} (small : count ≤ 1) :
    Float32.ofBits 0x80000000 + ofCount count = ofCount count := by
  rcases Nat.le_one_iff_eq_zero_or_eq_one.1 small with rfl | rfl
  · decide +kernel
  · decide +kernel

/-- The root of a count. -/
def root (count : Nat) : Single where
  bits := (ofCount count).sqrt.toBits

theorem height_root_lt_succ :
    ∀ count < 256, (root count).height < (root (count + 1)).height := by
  decide +kernel

/-- The roots of counts up to 256 are not rounded to the same number. -/
theorem height_root_lt {first second : Nat} (less : first < second)
    (small : second ≤ 256) : (root first).height < (root second).height := by
  induction second, less using Nat.le_induction with
  | base => exact height_root_lt_succ first (by omega)
  | succ second _ inductionHypothesis =>
      exact Int.lt_trans (inductionHypothesis (by omega))
        (height_root_lt_succ second (by omega))

theorem height_root_le_iff {first second : Nat} (firstSmall : first ≤ 256)
    (secondSmall : second ≤ 256) :
    (root first).height ≤ (root second).height ↔ first ≤ second := by
  constructor
  · intro ordered
    by_contra above
    have less := height_root_lt (Nat.lt_of_not_le above) firstSmall
    omega
  · intro ordered
    rcases Nat.eq_or_lt_of_le ordered with rfl | less
    · exact Int.le_refl _
    · exact Int.le_of_lt (height_root_lt less secondSmall)

theorem root_one : root 1 = one := by
  decide +kernel

namespace IsBinaryRow

variable {first second third fourth : List Single}

theorem isFiniteRow (binary : IsBinaryRow first) : IsFiniteRow first :=
  isFiniteRow_of_bits binary.bits

theorem isNumber_distance (firstBinary : IsBinaryRow first)
    (secondBinary : IsBinaryRow second) :
    (distance first second).IsNumber :=
  (distance_nonneg firstBinary.isFiniteRow secondBinary.isFiniteRow).1

theorem hamming_le (firstBinary : IsBinaryRow first) :
    hamming first second ≤ 256 :=
  firstBinary.length_eq ▸ hamming_le_length first second

/--
The squared differences of two binary rows add up to the number of columns in
which they differ.
-/
theorem addSquares_eq (firstBinary : IsBinaryRow first)
    (secondBinary : IsBinaryRow second) :
    addSquares first second (Float32.ofBits 0x80000000) =
      ofCount (hamming first second) := by
  obtain ⟨firstLength, firstBits⟩ := firstBinary
  obtain ⟨secondLength, secondBits⟩ := secondBinary
  cases first with
  | nil => cases firstLength
  | cons head rest =>
      cases second with
      | nil => cases secondLength
      | cons otherHead otherRest =>
          rw [List.forall_mem_cons] at firstBits secondBits
          rw [List.length_cons] at firstLength
          -- The first sum turns the minus zero into a count.
          rw [addSquares]
          simp only [square_sub_of_isBit firstBits.1 secondBits.1]
          rw [minus_zero_add_ofCount (by split <;> decide),
            addSquares_of_bits firstBits.2 secondBits.2
              (by split <;> omega),
            hamming_cons]

/--
The length between two binary rows is the root of the number of columns in which
they differ.
-/
theorem length_eq_sqrt (firstBinary : IsBinaryRow first)
    (secondBinary : IsBinaryRow second) :
    length first second = (ofCount (hamming first second)).sqrt := by
  rw [length, firstBinary.addSquares_eq secondBinary]

theorem distance_eq_root (firstBinary : IsBinaryRow first)
    (secondBinary : IsBinaryRow second) :
    distance first second = root (hamming first second) := by
  have number := isNumber_distance firstBinary secondBinary
  rw [IsNumber, value_distance] at number
  show (if (length first second).isNaN = true then
      notANumber (differenceSign first second)
    else { bits := (length first second).toBits }) = _
  rw [number, if_neg Bool.false_ne_true,
    length_eq_sqrt firstBinary secondBinary]
  rfl

/--
Distances of binary rows compare like the numbers of columns in which the rows
differ.
-/
theorem distance_le_iff (firstBinary : IsBinaryRow first)
    (secondBinary : IsBinaryRow second) (thirdBinary : IsBinaryRow third)
    (fourthBinary : IsBinaryRow fourth) :
    (distance first second).value ≤ (distance third fourth).value ↔
      hamming first second ≤ hamming third fourth := by
  rw [value_le_iff, and_iff_right (isNumber_distance firstBinary secondBinary),
    and_iff_right (isNumber_distance thirdBinary fourthBinary),
    distance_eq_root firstBinary secondBinary,
    distance_eq_root thirdBinary fourthBinary,
    height_root_le_iff firstBinary.hamming_le thirdBinary.hamming_le]

theorem distance_lt_iff (firstBinary : IsBinaryRow first)
    (secondBinary : IsBinaryRow second) (thirdBinary : IsBinaryRow third)
    (fourthBinary : IsBinaryRow fourth) :
    (distance first second).value < (distance third fourth).value ↔
      hamming first second < hamming third fourth := by
  rw [← Nat.not_le, ← distance_le_iff thirdBinary fourthBinary firstBinary
    secondBinary]
  have firstNumber := isNumber_distance firstBinary secondBinary
  have thirdNumber := isNumber_distance thirdBinary fourthBinary
  refine ⟨fun less within => ?_, value_lt_of_not_le thirdNumber firstNumber⟩
  rw [value_lt_iff] at less
  rw [value_le_iff] at within
  omega

/--
A distance of binary rows is at most 1 if they differ in at most one column.
-/
theorem distance_le_one_iff (firstBinary : IsBinaryRow first)
    (secondBinary : IsBinaryRow second) :
    (distance first second).value ≤ one.value ↔
      hamming first second ≤ 1 := by
  have number := isNumber_distance firstBinary secondBinary
  have oneNumber : one.IsNumber := by decide
  rw [value_le_iff, and_iff_right number, and_iff_right oneNumber,
    distance_eq_root firstBinary secondBinary, ← root_one,
    height_root_le_iff firstBinary.hamming_le (by decide)]

end IsBinaryRow

end ScreenCompare.Single
