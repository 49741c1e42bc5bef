import ScreenCompare.Proofs.Float.Packing

/-!
# Signs of floating-point numbers

A number is stored with its sign, and what is not a number is stored as such
(`sign?_unpack_pack`).  The difference of two finite numbers is a number, its
square carries the positive sign, and it does not depend on the order of the two
(`abs_sub_comm`, `mul_self_abs`).  Sums and roots of numbers that are not below
zero are not below zero.
-/

namespace ScreenCompare.Unpacked

open Float.Model (Format UnpackedFloat)
open Float.Model.UnpackedFloat

variable {format : Format}

/-! ## Signs in storage -/

/-- The sign of a number; what is not a number has none. -/
def sign? : UnpackedFloat → Option Sign
  | .notANumber => none
  | .infinity sign => some sign
  | .zero sign => some sign
  | .finite sign _ _ _ => some sign

theorem sign?_eq_none_iff {value : UnpackedFloat} :
    sign? value = none ↔ value.isNaN = true := by
  cases value <;> simp [sign?, UnpackedFloat.isNaN]

theorem zero_ne_allOnes (format : Format) :
    (0 : BitVec format.exponentBits) ≠ -1#_ := by
  intro equal
  exact Nat.ne_of_gt format.he (BitVec.zero_eq_neg_one_iff.1 equal)

/-- Fields that stand for a number are read back with their sign. -/
theorem sign?_unpack_packComponents {sign : Sign}
    {exponent : BitVec format.exponentBits}
    {mantissa : BitVec format.mantissaBitsWithoutImplicit}
    (number : exponent = -1#_ → mantissa = 0#_) :
    sign? (unpack format (packComponents format sign exponent mantissa)) =
      some sign := by
  simp only [unpack, unpackMantissa_packComponents,
    unpackExponent_packComponents, unpackSign_packComponents,
    Sign.ofBitVec_toBitVec]
  split
  · next ones =>
      rw [if_pos (number ones)]
      rfl
  · split
    · split
      · rfl
      · rfl
    · rfl

/-- Storing a number keeps its sign. -/
theorem sign?_unpack_pack (value : UnpackedFloat) :
    sign? (unpack format (pack format value)) = sign? value := by
  cases value with
  | notANumber => exact congrArg sign? unpack_packedNaN
  | infinity sign => exact sign?_unpack_packComponents fun _ => rfl
  | zero sign => exact sign?_unpack_packComponents fun _ => rfl
  | finite sign mantissa exponent positive =>
      simp only [pack]
      split
      · exact sign?_unpack_packComponents fun _ => rfl
      · next small =>
          split
          · exact sign?_unpack_packComponents fun ones =>
              absurd ones (field_ne_allOnes (by omega))
          · exact sign?_unpack_packComponents fun ones =>
              absurd ones (zero_ne_allOnes format)

theorem abs_unpack_packComponents (sign : Sign)
    (exponent : BitVec format.exponentBits)
    (mantissa : BitVec format.mantissaBitsWithoutImplicit) :
    (unpack format (packComponents format sign exponent mantissa)).abs =
      (unpack format
        (packComponents format .positive exponent mantissa)).abs := by
  simp only [unpack, unpackMantissa_packComponents,
    unpackExponent_packComponents, unpackSign_packComponents,
    Sign.ofBitVec_toBitVec]
  split
  · split
    · rfl
    · rfl
  · split
    · split
      · rfl
      · rfl
    · rfl

/--
Numbers that differ in their sign alone are stored so that they differ in their
sign alone.
-/
theorem abs_unpack_pack (value : UnpackedFloat) :
    (unpack format (pack format value)).abs =
      (unpack format (pack format value.abs)).abs := by
  cases value with
  | notANumber => rfl
  | infinity sign =>
      show (unpack format (packedInfinity format sign)).abs =
        (unpack format (packedInfinity format .positive)).abs
      rw [packedInfinity, packedInfinity, abs_unpack_packComponents]
  | zero sign =>
      show (unpack format (packedZero format sign)).abs =
        (unpack format (packedZero format .positive)).abs
      rw [unpack_packedZero, unpack_packedZero]
      rfl
  | finite sign mantissa exponent positive =>
      have magnitude :
          (UnpackedFloat.finite sign mantissa exponent positive).abs =
            .finite .positive mantissa exponent positive := rfl
      simp only [magnitude, pack, packedInfinity]
      split
      · rw [abs_unpack_packComponents]
      · split
        · rw [abs_unpack_packComponents]
        · rw [abs_unpack_packComponents]

/-! ## Signs of results -/

theorem sign?_roundWithAccuracy (sign : Sign) (mantissa : Nat) (exponent : Int)
    (accuracy : Accuracy) :
    sign? (roundWithAccuracy format sign mantissa exponent accuracy) =
      some sign := by
  simp only [roundWithAccuracy]
  split
  · rfl
  · rfl

theorem abs_roundWithAccuracy (sign : Sign) (mantissa : Nat) (exponent : Int)
    (accuracy : Accuracy) :
    (roundWithAccuracy format sign mantissa exponent accuracy).abs =
      (roundWithAccuracy format .positive mantissa exponent accuracy).abs := by
  simp only [roundWithAccuracy]
  split
  · rfl
  · rfl

theorem sign?_normalize_isSome (mantissa exponent : Int) (zeroSign : Sign) :
    (sign? (UnpackedFloat.normalize format mantissa exponent
      zeroSign)).isSome = true := by
  unfold UnpackedFloat.normalize UnpackedFloat.round
  split
  · rw [sign?_roundWithAccuracy]
    rfl
  · rfl
  · rw [sign?_roundWithAccuracy]
    rfl

theorem sign?_normalize {mantissa : Int} (nonnegative : 0 ≤ mantissa)
    (exponent : Int) :
    sign? (UnpackedFloat.normalize format mantissa exponent .positive) =
      some .positive := by
  unfold UnpackedFloat.normalize UnpackedFloat.round
  split
  · next below =>
      have negative := Int.compare_eq_lt.1 below
      omega
  · rfl
  · exact sign?_roundWithAccuracy ..

/-- The difference of two finite numbers is a number. -/
theorem sign?_sub_isSome {first second : UnpackedFloat}
    (firstFinite : first.isFinite = true)
    (secondFinite : second.isFinite = true) :
    (sign? (sub format first second)).isSome = true := by
  cases first with
  | notANumber => cases firstFinite
  | infinity => cases firstFinite
  | zero =>
      cases second with
      | notANumber => cases secondFinite
      | infinity => cases secondFinite
      | zero =>
          rw [sub]
          split
          · rfl
          · rfl
      | finite => rfl
  | finite =>
      cases second with
      | notANumber => cases secondFinite
      | infinity => cases secondFinite
      | zero => rfl
      | finite => exact sign?_normalize_isSome ..

theorem eq_of_compare_then {firstMantissa secondMantissa : Nat}
    {firstExponent secondExponent : Int}
    (equal : (compare firstExponent secondExponent).then
      (compare firstMantissa secondMantissa) = .eq) :
    firstMantissa = secondMantissa ∧ firstExponent = secondExponent := by
  rw [Ordering.then_eq_eq] at equal
  exact ⟨Nat.compare_eq_eq.1 equal.2, Int.compare_eq_eq.1 equal.1⟩

/-- The difference of equal finite numbers is zero. -/
theorem sub_of_beq {first second : UnpackedFloat}
    (finite : first.isFinite = true) (equal : first.beq second = true) :
    ∃ sign, sub format first second = .zero sign := by
  rw [UnpackedFloat.beq, beq_iff_eq] at equal
  cases first with
  | notANumber => cases finite
  | infinity => cases finite
  | zero firstSign =>
      cases second with
      | notANumber => cases equal
      | infinity sign => cases sign <;> cases equal
      | zero secondSign =>
          rw [sub]
          split
          · exact ⟨_, rfl⟩
          · exact ⟨_, rfl⟩
      | finite sign => cases sign <;> cases equal
  | finite firstSign firstMantissa firstExponent =>
      cases second with
      | notANumber => cases firstSign <;> cases equal
      | infinity sign => cases sign <;> cases firstSign <;> cases equal
      | zero => cases firstSign <;> cases equal
      | finite secondSign secondMantissa secondExponent =>
          have same : firstSign = secondSign ∧
              firstMantissa = secondMantissa ∧
              firstExponent = secondExponent := by
            cases firstSign with
            | positive =>
                cases secondSign with
                | positive =>
                    exact ⟨rfl, eq_of_compare_then (Option.some.inj equal)⟩
                | negative => cases equal
            | negative =>
                cases secondSign with
                | positive => cases equal
                | negative =>
                    have swapped := Option.some.inj equal
                    rw [Ordering.swap_eq_eq] at swapped
                    exact ⟨rfl, eq_of_compare_then swapped⟩
          obtain ⟨rfl, rfl, rfl⟩ := same
          refine ⟨.positive, ?_⟩
          simp only [sub, Int.sub_self]
          rfl

theorem Sign.mul_self (sign : Sign) : sign * sign = .positive := by
  cases sign <;> rfl

/-- A square is never negative. -/
theorem sign?_mul_self {value : UnpackedFloat}
    (number : (sign? value).isSome = true) :
    sign? (mul format value value) = some .positive := by
  cases value with
  | notANumber => cases number
  | infinity sign => exact congrArg some (Sign.mul_self sign)
  | zero sign => exact congrArg some (Sign.mul_self sign)
  | finite sign mantissa exponent positive =>
      rw [mul, sign?_roundWithAccuracy, Sign.mul_self]

/-- A square does not depend on the sign of its root. -/
theorem mul_self_abs (value : UnpackedFloat) :
    mul format value value = mul format value.abs value.abs := by
  cases value with
  | notANumber => rfl
  | infinity sign => exact congrArg _ (Sign.mul_self sign)
  | zero sign => exact congrArg _ (Sign.mul_self sign)
  | finite sign mantissa exponent positive =>
      rw [UnpackedFloat.abs, mul, mul, Sign.mul_self, Sign.mul_self]

theorem abs_normalize_neg (mantissa exponent : Int) (zeroSign : Sign) :
    (UnpackedFloat.normalize format (-mantissa) exponent zeroSign).abs =
      (UnpackedFloat.normalize format mantissa exponent zeroSign).abs := by
  rcases Int.lt_trichotomy mantissa 0 with below | rfl | above
  · have order : compare mantissa 0 = .lt := Int.compare_eq_lt.2 below
    have opposite : compare (-mantissa) 0 = .gt :=
      Int.compare_eq_gt.2 (by omega)
    simp only [UnpackedFloat.normalize, order, opposite, UnpackedFloat.round]
    exact (abs_roundWithAccuracy ..).symm
  · rfl
  · have order : compare mantissa 0 = .gt := Int.compare_eq_gt.2 above
    have opposite : compare (-mantissa) 0 = .lt :=
      Int.compare_eq_lt.2 (by omega)
    simp only [UnpackedFloat.normalize, order, opposite, UnpackedFloat.round,
      Int.neg_neg]
    exact abs_roundWithAccuracy ..

/--
The differences of two numbers in either order differ in their sign alone.
-/
theorem abs_sub_comm (first second : UnpackedFloat) :
    (sub format first second).abs = (sub format second first).abs := by
  cases first with
  | notANumber => cases second <;> rfl
  | infinity sign => 
    cases second with
    | infinity other => cases sign <;> cases other <;> rfl
    | notANumber => rfl
    | zero => rfl
    | finite => rfl
  | zero sign => 
    cases second with
    | zero other => cases sign <;> cases other <;> rfl
    | notANumber => rfl
    | infinity => rfl
    | finite => rfl
  | finite sign mantissa exponent positive =>
      cases second with
      | notANumber => rfl
      | infinity => rfl
      | zero => rfl
      | finite otherSign otherMantissa otherExponent otherPositive =>
          simp only [sub]
          rw [Int.min_comm, ← abs_normalize_neg, Int.neg_sub]

/-! ## Numbers that are not below zero -/

/-- The value is a number and not below zero. -/
def IsNonnegative : UnpackedFloat → Prop
  | .notANumber => False
  | .infinity sign => sign = .positive
  | .zero _ => True
  | .finite sign _ _ _ => sign = .positive

theorem isNonnegative_of_sign? {value : UnpackedFloat}
    (positive : sign? value = some .positive) : IsNonnegative value := by
  cases value with
  | notANumber => cases positive
  | infinity => exact Option.some.inj positive
  | zero => trivial
  | finite => exact Option.some.inj positive

/-- What is not below zero is zero or carries the positive sign. -/
theorem IsNonnegative.zero_or_sign? {value : UnpackedFloat}
    (nonnegative : IsNonnegative value) :
    (∃ sign, value = .zero sign) ∨ sign? value = some .positive := by
  cases value with
  | notANumber => exact nonnegative.elim
  | infinity => exact Or.inr (congrArg some nonnegative)
  | zero sign => exact Or.inl ⟨sign, rfl⟩
  | finite => exact Or.inr (congrArg some nonnegative)

theorem IsNonnegative.unpack_pack {value : UnpackedFloat}
    (nonnegative : IsNonnegative value) :
    IsNonnegative (unpack format (pack format value)) := by
  rcases nonnegative.zero_or_sign? with ⟨sign, rfl⟩ | positive
  · show IsNonnegative (unpack format (packedZero format sign))
    rw [unpack_packedZero]
    trivial
  · apply isNonnegative_of_sign?
    rw [sign?_unpack_pack, positive]

theorem IsNonnegative.add {first second : UnpackedFloat}
    (firstNonnegative : IsNonnegative first)
    (secondNonnegative : IsNonnegative second) :
    IsNonnegative (UnpackedFloat.add format first second) := by
  cases first with
  | notANumber => exact firstNonnegative.elim
  | infinity sign =>
      cases firstNonnegative
      cases second with
      | notANumber => exact secondNonnegative.elim
      | infinity other =>
          cases secondNonnegative
          rfl
      | zero => rfl
      | finite => rfl
  | zero sign =>
      cases second with
      | notANumber => exact secondNonnegative.elim
      | infinity => exact secondNonnegative
      | zero other =>
          rw [UnpackedFloat.add]
          split
          · trivial
          · trivial
      | finite => exact secondNonnegative
  | finite sign mantissa exponent positive =>
      cases firstNonnegative
      cases second with
      | notANumber => exact secondNonnegative.elim
      | infinity => exact secondNonnegative
      | zero => rfl
      | finite otherSign otherMantissa otherExponent otherPositive =>
          cases secondNonnegative
          apply isNonnegative_of_sign?
          exact sign?_normalize
            (Int.add_nonneg (Int.natCast_nonneg _) (Int.natCast_nonneg _)) _

theorem IsNonnegative.sqrt {value : UnpackedFloat}
    (nonnegative : IsNonnegative value) :
    IsNonnegative (UnpackedFloat.sqrt format value) := by
  cases value with
  | notANumber => exact nonnegative.elim
  | infinity sign =>
      cases nonnegative
      rfl
  | zero => trivial
  | finite sign mantissa exponent positive =>
      cases nonnegative
      exact isNonnegative_of_sign? (sign?_roundWithAccuracy ..)

end ScreenCompare.Unpacked
