import ScreenCompare.Proofs.Gate.Histogram
import ScreenCompare.Proofs.Raster

/-!
# The first comparison decides equality

Histograms lose the position and the brightness of cells, and their distance is
neither exact nor symmetric.  The verdict is not affected: equal pictures pass
the histograms, and pictures that pass are compared cell by cell.
-/

namespace ScreenCompare

namespace Raster

variable {α : Type}

/-- Both rasters have the same size and the same cells. -/
def Agrees (first second : Raster α) : Prop :=
  first.SameSize second ∧ ∀ x y, first.get? x y = second.get? x y

theorem agrees_iff_eq {first second : Raster α} :
    first.Agrees second ↔ first = second := by
  constructor
  · intro agrees
    exact ext_get? agrees.1 agrees.2
  · intro equal
    rw [equal]
    exact ⟨SameSize.refl second, fun _ _ => rfl⟩

end Raster

namespace Picture

theorem compare_of_isEmpty {old new : Picture}
    (empty : old.IsEmpty ∨ new.IsEmpty) :
    old.compare new = .emptyPicture :=
  if_pos empty

theorem compare_self {picture : Picture} (filled : ¬ picture.IsEmpty) :
    picture.compare picture = .same := by
  rw [compare, if_neg (by simp [filled]), Histogram.isNegligible_self,
    decide_eq_true rfl]
  rfl

theorem compare_of_ne {old new : Picture}
    (filled : ¬ (old.IsEmpty ∨ new.IsEmpty)) (different : old ≠ new) :
    old.compare new = .different := by
  rw [compare, if_neg filled, decide_eq_false different, Bool.and_false]
  rfl

/-- The verdict, as if there were no histograms. -/
theorem compare_eq (old new : Picture) :
    old.compare new =
      if old.IsEmpty ∨ new.IsEmpty then .emptyPicture
      else if old = new then .same
      else .different := by
  split
  case isTrue empty => exact compare_of_isEmpty empty
  case isFalse filled =>
    split
    case isTrue equal =>
      subst equal
      exact compare_self fun empty => filled (.inl empty)
    case isFalse different => exact compare_of_ne filled different

theorem compare_eq_emptyPicture_iff {old new : Picture} :
    old.compare new = .emptyPicture ↔ old.IsEmpty ∨ new.IsEmpty := by
  rw [compare_eq]
  split
  case isTrue empty => exact iff_of_true rfl empty
  case isFalse filled =>
    refine iff_of_false ?_ filled
    split
    · intro verdict
      cases verdict
    · intro verdict
      cases verdict

theorem compare_eq_same_iff {old new : Picture} :
    old.compare new = .same ↔
      ¬ (old.IsEmpty ∨ new.IsEmpty) ∧ old.Agrees new := by
  rw [compare_eq, Raster.agrees_iff_eq]
  split
  case isTrue empty =>
    refine iff_of_false ?_ fun both => both.1 empty
    intro verdict
    cases verdict
  case isFalse filled =>
    split
    case isTrue equal => exact iff_of_true rfl ⟨filled, equal⟩
    case isFalse different =>
      refine iff_of_false ?_ fun both => different both.2
      intro verdict
      cases verdict

theorem compare_eq_different_iff {old new : Picture} :
    old.compare new = .different ↔
      ¬ (old.IsEmpty ∨ new.IsEmpty) ∧ ¬ old.Agrees new := by
  rw [compare_eq, Raster.agrees_iff_eq]
  split
  case isTrue empty =>
    refine iff_of_false ?_ fun both => both.1 empty
    intro verdict
    cases verdict
  case isFalse filled =>
    split
    case isTrue equal =>
      refine iff_of_false ?_ fun both => both.2 equal
      intro verdict
      cases verdict
    case isFalse different => exact iff_of_true rfl ⟨filled, different⟩

/-- The histograms of pictures that agree are at distance zero and pass. -/
theorem chiSquare_of_agrees {old new : Picture}
    (agrees : old.Agrees new) :
    ((Histogram.ofPicture old).chiSquare (Histogram.ofPicture new) == 0) =
        true ∧
      Histogram.isNegligible
        ((Histogram.ofPicture old).chiSquare (Histogram.ofPicture new)) =
          true := by
  rw [Raster.agrees_iff_eq.1 agrees]
  exact ⟨(Histogram.isZero_self new).beq_zero,
    Histogram.isNegligible_self new⟩

theorem compare_comm (old new : Picture) :
    old.compare new = new.compare old := by
  rw [compare_eq, compare_eq]
  simp only [Or.comm, eq_comm]

/--
The first comparison reports an empty picture exactly if one of the pictures has
no width or no height, and otherwise whether sizes and cells agree.  Agreeing
pictures have histograms at distance zero and pass, and the order of the pictures
does not matter to the verdict, although it matters to the distance of the
histograms.
-/
theorem compare_decides_equality :
    (∀ old new : Picture,
      (old.compare new = .emptyPicture ↔
        (old.width = 0 ∨ old.height = 0) ∨
          (new.width = 0 ∨ new.height = 0)) ∧
      (old.compare new = .same ↔
        ¬ (old.IsEmpty ∨ new.IsEmpty) ∧ old.Agrees new) ∧
      (old.compare new = .different ↔
        ¬ (old.IsEmpty ∨ new.IsEmpty) ∧ ¬ old.Agrees new) ∧
      (old.Agrees new →
        ((Histogram.ofPicture old).chiSquare (Histogram.ofPicture new) ==
            0) = true ∧
          Histogram.isNegligible
            ((Histogram.ofPicture old).chiSquare
              (Histogram.ofPicture new)) = true) ∧
      old.compare new = new.compare old) ∧
    ∃ first second : Picture,
      Histogram.isNegligible
        ((Histogram.ofPicture first).chiSquare
          (Histogram.ofPicture second)) = true ∧
      Histogram.isNegligible
        ((Histogram.ofPicture second).chiSquare
          (Histogram.ofPicture first)) = false := by
  constructor
  · intro old new
    exact ⟨compare_eq_emptyPicture_iff, compare_eq_same_iff,
      compare_eq_different_iff, chiSquare_of_agrees,
      compare_comm old new⟩
  · exact ⟨Histogram.whiteCells, Histogram.tintedCells,
      Histogram.isNegligible_asymmetric⟩

end Picture

end ScreenCompare
