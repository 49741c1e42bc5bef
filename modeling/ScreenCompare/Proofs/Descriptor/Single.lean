import ScreenCompare.Descriptor.Single
import ScreenCompare.Proofs.Float.Magnitude

/-!
# Single-precision numbers and their distances

Numbers are ordered by their magnitude with its sign, the height
(`value_le_iff`), and the total order agrees with it on numbers
(`value_le_of_rank_le`); values that are not numbers come before or after all of
them, depending on their sign.

The distance of two rows is the same both ways, if it is a number
(`distance_comm`).  Between finite rows it is a number and not below zero
(`distance_nonneg`), and between equal ones it is zero (`distance_of_equals`).
-/

namespace ScreenCompare.Single

open Float.Model (Format UnpackedFloat)
open Float.Model.UnpackedFloat
open ScreenCompare.Unpacked

/-! ## Order -/

/-- The value is a number. -/
def IsNumber (single : Single) : Prop :=
  single.value.isNaN = false

instance (single : Single) : Decidable single.IsNumber :=
  inferInstanceAs (Decidable (_ = _))

/-- The bits without the sign bit. -/
def magnitude (single : Single) : Nat :=
  single.bits.toNat % 2 ^ 31

/-- The magnitude with the sign.  Zero and minus zero have the same height. -/
def height (single : Single) : Int :=
  if single.isNegative then -(single.magnitude : Int) else single.magnitude

theorem unpack_value (single : Single) :
    single.value.toModel.unpack =
      unpack Format.binary32 single.bits.toBitVec := by
  show unpack Format.binary32 (pack Format.binary32
    (unpack Format.binary32 single.bits.toBitVec)) = _
  rw [pack_unpack]
  split
  · next nothing =>
      rw [isNaNBits, decide_eq_true_eq] at nothing
      rw [unpack_packedNaN]
      simp only [unpack, nothing.1, nothing.2, if_true, if_false]
  · rfl

theorem hasMagnitude_value (single : Single) :
    HasMagnitude single.magnitude single.value.toModel.unpack := by
  rw [unpack_value]
  exact hasMagnitude_unpack single.bits.toBitVec

theorem isNumber_iff {single : Single} :
    single.IsNumber ↔ single.magnitude ≤ 255 * 2 ^ 23 :=
  single.hasMagnitude_value.isNaN_eq_false_iff

theorem sign?_value {single : Single} (number : single.IsNumber) :
    sign? single.value.toModel.unpack =
      some (if single.isNegative then .negative else .positive) := by
  have isSome : sign? single.value.toModel.unpack ≠ none := by
    intro nothing
    have notNumber : single.value.isNaN = true :=
      sign?_eq_none_iff.1 nothing
    rw [IsNumber, notNumber] at number
    cases number
  rw [unpack_value] at isSome ⊢
  rw [sign?_unpack isSome, UInt32.toNat_toBitVec]
  by_cases negative : single.isNegative = true
  · have above := of_decide_eq_true negative
    rw [if_pos negative, if_neg (by omega)]
  · have below := of_decide_eq_false (Bool.eq_false_iff.2 negative)
    rw [if_neg negative, if_pos (by omega)]

theorem apply_magnitude (single : Single) :
    (if single.isNegative then Sign.negative else .positive).apply
      single.magnitude = single.height := by
  unfold height
  split
  · rfl
  · rfl

theorem eq_notANumber {single : Single} (nothing : ¬ single.IsNumber) :
    single.value.toModel.unpack = .notANumber :=
  isNaN_iff.1 (Bool.eq_true_of_not_eq_false nothing)

/--
Numbers compare like their heights, and what is not a number does not compare.
-/
theorem compare_value (first second : Single) :
    first.value.toModel.unpack.compare second.value.toModel.unpack =
      if first.IsNumber ∧ second.IsNumber then
        some (compare first.height second.height)
      else none := by
  by_cases firstNumber : first.IsNumber
  · by_cases secondNumber : second.IsNumber
    · rw [compare_eq first.hasMagnitude_value second.hasMagnitude_value
        (sign?_value firstNumber) (sign?_value secondNumber),
        apply_magnitude, apply_magnitude, if_pos ⟨firstNumber, secondNumber⟩]
    · rw [if_neg fun numbers => secondNumber numbers.2,
        eq_notANumber secondNumber]
      cases first.value.toModel.unpack <;> rfl
  · rw [if_neg fun numbers => firstNumber numbers.1, eq_notANumber firstNumber]
    rfl

/-- Numbers are ordered by height, and what is not a number is not ordered. -/
theorem value_le_iff {first second : Single} :
    first.value ≤ second.value ↔
      first.IsNumber ∧ second.IsNumber ∧ first.height ≤ second.height := by
  have unfolded : first.value ≤ second.value ↔
      first.value.toModel.unpack.le second.value.toModel.unpack = true :=
    decide_eq_true_iff
  rw [unfolded, UnpackedFloat.le, compare_value, ← and_assoc]
  split
  · next numbers => simp [numbers, Int.isLE_compare]
  · next none => simp [none]

theorem value_lt_iff {first second : Single} :
    first.value < second.value ↔
      first.IsNumber ∧ second.IsNumber ∧ first.height < second.height := by
  have unfolded : first.value < second.value ↔
      first.value.toModel.unpack.lt second.value.toModel.unpack = true :=
    decide_eq_true_iff
  rw [unfolded, UnpackedFloat.lt, compare_value, ← and_assoc]
  split
  · next numbers => simp [numbers, Int.compare_eq_lt]
  · next none => simp [none]

theorem value_le_refl {single : Single} (number : single.IsNumber) :
    single.value ≤ single.value :=
  value_le_iff.2 ⟨number, number, Int.le_refl _⟩

theorem value_le_trans {first second third : Single}
    (left : first.value ≤ second.value) (right : second.value ≤ third.value) :
    first.value ≤ third.value := by
  rw [value_le_iff] at left right ⊢
  exact ⟨left.1, right.2.1, Int.le_trans left.2.2 right.2.2⟩

theorem value_lt_of_not_le {first second : Single}
    (firstNumber : first.IsNumber) (secondNumber : second.IsNumber)
    (beyond : ¬ first.value ≤ second.value) : second.value < first.value := by
  rw [value_le_iff] at beyond
  rw [value_lt_iff]
  refine ⟨secondNumber, firstNumber, ?_⟩
  by_contra above
  exact beyond ⟨firstNumber, secondNumber, Int.not_lt.1 above⟩

theorem value_le_of_not_le {first second : Single}
    (firstNumber : first.IsNumber) (secondNumber : second.IsNumber)
    (beyond : ¬ first.value ≤ second.value) : second.value ≤ first.value := by
  have above := value_lt_iff.1
    (value_lt_of_not_le firstNumber secondNumber beyond)
  exact value_le_iff.2 ⟨above.1, above.2.1, Int.le_of_lt above.2.2⟩

/-! ## Total order -/

theorem rank_eq (single : Single) :
    single.rank = if single.isNegative then -1 - (single.magnitude : Int)
      else single.magnitude := by
  have bound : single.bits.toNat < 2 ^ 32 := single.bits.toBitVec.isLt
  unfold rank magnitude isNegative
  split
  · next positive =>
      rw [if_neg (by simpa using positive), Nat.mod_eq_of_lt (by omega)]
  · next negative =>
      rw [if_pos (by simpa using negative)]
      omega

/-- Numbers are in total order only if they are in order. -/
theorem value_le_of_rank_le {first second : Single}
    (firstNumber : first.IsNumber) (secondNumber : second.IsNumber)
    (ranks : first.rank ≤ second.rank) : first.value ≤ second.value := by
  refine value_le_iff.2 ⟨firstNumber, secondNumber, ?_⟩
  rw [rank_eq, rank_eq] at ranks
  unfold height
  split at ranks <;> split at ranks <;> simp_all <;> omega

/-! ## Distances -/

/-- Both differences of two numbers have the same square. -/
theorem square_sub_comm (first second : Float32) :
    (first - second) * (first - second) =
      (second - first) * (second - first) := by
  show Float32.ofModel (Float32.Model.pack (UnpackedFloat.mul _
      (unpack _ (pack _ (UnpackedFloat.sub _ _ _)))
      (unpack _ (pack _ (UnpackedFloat.sub _ _ _))))) =
    .ofModel (.pack (UnpackedFloat.mul _
      (unpack _ (pack _ (UnpackedFloat.sub _ _ _)))
      (unpack _ (pack _ (UnpackedFloat.sub _ _ _)))))
  rw [mul_self_abs, abs_unpack_pack, abs_sub_comm, ← abs_unpack_pack,
    ← mul_self_abs]

theorem addSquares_comm (firsts seconds : List Single) (sum : Float32) :
    addSquares firsts seconds sum = addSquares seconds firsts sum := by
  induction firsts generalizing seconds sum with
  | nil =>
      cases seconds with
      | nil => rfl
      | cons => rfl
  | cons first firsts inductionHypothesis =>
      cases seconds with
      | nil => rfl
      | cons second seconds =>
          simp only [addSquares]
          rw [square_sub_comm, inductionHypothesis]

/-- The length that a distance stores. -/
def length (first second : List Single) : Float32 :=
  (addSquares first second (Float32.ofBits 0x80000000)).sqrt

theorem isNaN_value_notANumber (negative : Bool) :
    (notANumber negative).value.isNaN = true := by
  cases negative with
  | false => decide
  | true => decide

theorem value_distance (first second : List Single) :
    (distance first second).value = length first second := by
  show (if (length first second).isNaN = true then
      notANumber (differenceSign first second)
    else { bits := (length first second).toBits }).value = _
  split
  · next nothing =>
      have stored := isNaN_value_notANumber (differenceSign first second)
      rw [Float32.isNaN_eq_decide_eq_nan, decide_eq_true_iff] at nothing stored
      rw [nothing, stored]
  · exact Float32.ofBits_toBits (length first second)

/-- A distance that is a number does not depend on the order of the rows. -/
theorem distance_comm {first second : List Single}
    (number : (distance first second).IsNumber) :
    distance first second = distance second first := by
  have lengths : length first second = length second first := by
    rw [length, length, addSquares_comm]
  rw [IsNumber, value_distance] at number
  show (if (length first second).isNaN = true then
      notANumber (differenceSign first second)
    else { bits := (length first second).toBits }) =
    (if (length second first).isNaN = true then
      notANumber (differenceSign second first)
    else { bits := (length second first).toBits })
  rw [← lengths, number]
  rfl

/-! ## Distances of finite rows -/

/-- All numbers of the row are finite. -/
def IsFiniteRow (row : List Single) : Prop :=
  ∀ number ∈ row, number.value.isFinite = true

theorem unpack_minus_zero :
    (Float32.ofBits 0x80000000).toModel.unpack = .zero .negative := by
  rfl

theorem sign?_square_sub {first second : Float32}
    (firstFinite : first.isFinite = true)
    (secondFinite : second.isFinite = true) :
    sign? ((first - second) * (first - second)).toModel.unpack =
      some .positive := by
  have difference : (sign? (first - second).toModel.unpack).isSome = true := by
    show (sign? (unpack _ (pack _ (UnpackedFloat.sub _ _ _)))).isSome = true
    rw [sign?_unpack_pack]
    exact sign?_sub_isSome firstFinite secondFinite
  show sign? (unpack _ (pack _ (UnpackedFloat.mul _ _ _))) = _
  rw [sign?_unpack_pack]
  exact sign?_mul_self difference

theorem isNonnegative_addSquares {firsts seconds : List Single}
    {sum : Float32} (firstFinite : IsFiniteRow firsts)
    (secondFinite : IsFiniteRow seconds)
    (nonnegative : IsNonnegative sum.toModel.unpack) :
    IsNonnegative (addSquares firsts seconds sum).toModel.unpack := by
  induction firsts generalizing seconds sum with
  | nil =>
      cases seconds with
      | nil => exact nonnegative
      | cons => exact nonnegative
  | cons first firsts inductionHypothesis =>
      cases seconds with
      | nil => exact nonnegative
      | cons second seconds =>
          rw [IsFiniteRow, List.forall_mem_cons] at firstFinite secondFinite
          apply inductionHypothesis firstFinite.2 secondFinite.2
          exact (nonnegative.add (isNonnegative_of_sign?
            (sign?_square_sub firstFinite.1 secondFinite.1))).unpack_pack

theorem height_eq_zero {single : Single} {sign : Sign}
    (zero : single.value.toModel.unpack = .zero sign) :
    single.IsNumber ∧ single.height = 0 := by
  have empty := single.hasMagnitude_value
  rw [zero] at empty
  have none : single.magnitude = 0 := empty
  constructor
  · rw [isNumber_iff, none]
    exact Nat.zero_le _
  · rw [height, none]
    exact ite_self _

theorem height_nonneg {single : Single}
    (nonnegative : IsNonnegative single.value.toModel.unpack) :
    single.IsNumber ∧ 0 ≤ single.height := by
  rcases nonnegative.zero_or_sign? with ⟨sign, zero⟩ | positive
  · have flat := height_eq_zero zero
    exact ⟨flat.1, Int.le_of_eq flat.2.symm⟩
  · have number : single.IsNumber := by
      apply Bool.eq_false_iff.2
      intro nothing
      rw [sign?_eq_none_iff.2 nothing] at positive
      cases positive
    refine ⟨number, ?_⟩
    rw [sign?_value number, Option.some.injEq] at positive
    rw [height, if_neg]
    · exact Int.natCast_nonneg _
    · intro negative
      rw [if_pos negative] at positive
      cases positive

/-- The distance of finite rows is a number and not below zero. -/
theorem distance_nonneg {first second : List Single}
    (firstFinite : IsFiniteRow first) (secondFinite : IsFiniteRow second) :
    (distance first second).IsNumber ∧ 0 ≤ (distance first second).height := by
  apply height_nonneg
  rw [value_distance]
  have start : IsNonnegative (Float32.ofBits 0x80000000).toModel.unpack := by
    rw [unpack_minus_zero]
    trivial
  exact (isNonnegative_addSquares firstFinite secondFinite
    start).sqrt.unpack_pack

/-- The numbers are equal.  Zero and minus zero are. -/
def Equals (first second : Single) : Prop :=
  (first.value == second.value) = true

instance (first second : Single) : Decidable (first.Equals second) :=
  inferInstanceAs (Decidable (_ = _))

theorem equals_iff {first second : Single} :
    first.Equals second ↔
      first.IsNumber ∧ second.IsNumber ∧ first.height = second.height := by
  have unfolded : first.Equals second ↔
      first.value.toModel.unpack.beq second.value.toModel.unpack = true :=
    Iff.rfl
  rw [unfolded, UnpackedFloat.beq, compare_value, ← and_assoc]
  split
  · next numbers => simp [numbers]
  · next none => simp [none]

theorem unpack_square_sub_of_equals {first second : Single}
    (finite : first.value.isFinite = true) (equal : first.Equals second) :
    ((first.value - second.value) *
      (first.value - second.value)).toModel.unpack = .zero .positive := by
  have difference :
      ∃ sign, (first.value - second.value).toModel.unpack = .zero sign := by
    obtain ⟨sign, zero⟩ := sub_of_beq finite equal
    refine ⟨sign, ?_⟩
    show unpack _ (pack _ (UnpackedFloat.sub _ first.value.toModel.unpack
      second.value.toModel.unpack)) = _
    rw [zero]
    exact unpack_packedZero
  obtain ⟨sign, zero⟩ := difference
  show unpack _ (pack _ (UnpackedFloat.mul _
    (first.value - second.value).toModel.unpack
    (first.value - second.value).toModel.unpack)) = _
  rw [zero, UnpackedFloat.mul, Sign.mul_self]
  exact unpack_packedZero

theorem addSquares_of_equals {firsts seconds : List Single} {sum : Float32}
    (finite : IsFiniteRow firsts) (equal : List.Forall₂ Equals firsts seconds)
    (zero : ∃ sign, sum.toModel.unpack = .zero sign) :
    ∃ sign, (addSquares firsts seconds sum).toModel.unpack = .zero sign := by
  induction equal generalizing sum with
  | nil => exact zero
  | cons equals _ inductionHypothesis =>
      rw [IsFiniteRow, List.forall_mem_cons] at finite
      apply inductionHypothesis finite.2
      obtain ⟨sign, unpacked⟩ := zero
      show ∃ sign, unpack _ (pack _ (UnpackedFloat.add _ sum.toModel.unpack
        ((_ - _) * (_ - _) : Float32).toModel.unpack)) = .zero sign
      rw [unpacked, unpack_square_sub_of_equals finite.1 equals,
        UnpackedFloat.add]
      split
      · exact ⟨_, unpack_packedZero⟩
      · exact ⟨_, unpack_packedZero⟩

/-- Equal finite rows are at no distance. -/
theorem distance_of_equals {first second : List Single}
    (finite : IsFiniteRow first) (equal : List.Forall₂ Equals first second) :
    (distance first second).IsNumber ∧
      (distance first second).height = 0 := by
  obtain ⟨sign, zero⟩ :=
    addSquares_of_equals finite equal ⟨_, unpack_minus_zero⟩
  apply height_eq_zero
  rw [value_distance]
  show unpack _ (pack _ (UnpackedFloat.sqrt _
    (addSquares first second _).toModel.unpack)) = _
  rw [zero]
  exact unpack_packedZero

end ScreenCompare.Single
