import ScreenCompare.Proofs.Float.Quotient
import ScreenCompare.Proofs.Gate.BinCounts

/-!
# Histograms as shares of the fullest bin

Since some bin of a picture is always empty, stretching the counts to the unit
interval only divides them by the largest one.  A picture with cells has a
fullest bin, and each bin of its histogram holds the share of that bin's count
(`getElem?_ofPicture`).  The histogram does not depend on the order of the cells
(`ofPicture_eq_of_perm`).

To see that nothing is divided by zero, the histogram and the distance are
computed once more with quotients that have no value then
(`Guarded.ofPicture_eq`, `Guarded.chiSquare_eq`).
-/

namespace ScreenCompare.Histogram

open Double

variable {picture other : Picture} {bin fullest : Nat}

/-- All counts are equal, so that there is nothing to stretch. -/
def IsFlat (counts : Array Nat) : Prop :=
  counts.foldl max 0 ≤ counts.foldl min (counts.getD 0 0)

/-! ## Guarded computation -/

namespace Guarded

/-- A quotient by something other than zero. -/
def quotient (dividend divisor : Float) : Option Float :=
  if divisor == 0 then none else some (dividend / divisor)

/-- Stretch counts to the unit interval. -/
def ofCounts (counts : Array Nat) : Option Histogram := do
  let fewest := counts.foldl min (counts.getD 0 0)
  let most := counts.foldl max 0
  let range := Float.ofNat (most - fewest)
  let bins ← counts.mapM fun count =>
    if fewest < most then quotient (Float.ofNat (count - fewest)) range
    else some 0
  return { bins }

/-- The histogram of a picture. -/
def ofPicture (picture : Picture) : Option Histogram :=
  ofCounts picture.binCounts

/-- Add the contribution of one bin to a chi-square sum. -/
def addDeviation (total reference other : Float) : Option Float := do
  if reference == 0 then return total
  let deviation ←
    quotient ((reference - other) * (reference - other)) reference
  return total + deviation

/-- The chi-square distance of a histogram from a reference. -/
def chiSquare (reference other : Histogram) : Option Float :=
  (reference.bins.zip other.bins).foldlM
    (fun total pair => addDeviation total pair.1 pair.2)
    (-0.0)

theorem quotient_eq {dividend divisor : Float}
    (nonzero : (divisor == 0) = false) :
    quotient dividend divisor = some (dividend / divisor) := by
  rw [quotient, nonzero]
  rfl

/-- Counts that are not flat have a range to divide by. -/
theorem stretch_eq {fewest most : Nat} (bounded : most ≤ largestCount)
    (count : Nat) :
    (if fewest < most then
        quotient (Float.ofNat (count - fewest)) (Float.ofNat (most - fewest))
      else some 0) =
      some (if fewest < most then
        Float.ofNat (count - fewest) / Float.ofNat (most - fewest)
      else 0) := by
  split
  case isTrue uneven =>
    have range := normal_ofNat (Nat.sub_ne_zero_of_lt uneven)
      (Nat.le_trans (Nat.sub_le most fewest) bounded)
    exact quotient_eq (isFinite_of_normal range).2
  case isFalse => rfl

theorem ofCounts_eq {counts : Array Nat}
    (bounded : ∀ count ∈ counts, count ≤ largestCount) :
    ofCounts counts = some (Histogram.ofCounts counts) := by
  have stretched := @stretch_eq (counts.foldl min (counts.getD 0 0)) _
    (foldl_max_le bounded)
  simp only [ofCounts, stretched]
  rw [← Option.pure_def, Array.mapM_pure]
  rfl

theorem ofPicture_eq (picture : Picture) :
    ofPicture picture = some (Histogram.ofPicture picture) :=
  ofCounts_eq picture.binCounts_le

/-- Bins that would be a zero divisor do not take part. -/
theorem addDeviation_eq (total reference other : Float) :
    addDeviation total reference other =
      some (Histogram.addDeviation total reference other) := by
  rw [addDeviation, Histogram.addDeviation]
  split
  case isTrue => rfl
  case isFalse nonzero =>
    rw [quotient_eq (Bool.eq_false_iff.2 nonzero)]
    rfl

theorem chiSquare_eq (reference other : Histogram) :
    chiSquare reference other = some (reference.chiSquare other) := by
  simp only [chiSquare, addDeviation_eq]
  exact Array.foldlM_pure

end Guarded

/-! ## Shares -/

theorem not_isFlat_binCounts (filled : ¬ picture.IsEmpty) :
    ¬ IsFlat picture.binCounts := by
  obtain ⟨fullest, bound, positive, greatest⟩ := Picture.exists_fullest filled
  rw [IsFlat, picture.foldl_min_binCounts,
    Picture.foldl_max_binCounts bound greatest, Nat.not_le]
  exact positive

theorem size_ofPicture (picture : Picture) :
    (ofPicture picture).bins.size = binsPerAxis * binsPerAxis := by
  rw [ofPicture, ofCounts, Array.size_map, picture.size_binCounts]

/-- Each bin holds its share of the fullest bin's count. -/
theorem getElem?_ofPicture (bound : fullest < binsPerAxis * binsPerAxis)
    (positive : 0 < picture.tally fullest)
    (greatest : ∀ bin, picture.tally bin ≤ picture.tally fullest)
    (inside : bin < binsPerAxis * binsPerAxis) :
    (ofPicture picture).bins[bin]? =
      some (Float.ofNat (picture.tally bin) /
        Float.ofNat (picture.tally fullest)) := by
  simp only [ofPicture, ofCounts, picture.foldl_min_binCounts,
    Picture.foldl_max_binCounts bound greatest, if_pos positive,
    Nat.sub_zero]
  rw [Array.getElem?_map, picture.getElem?_binCounts inside]
  rfl

/-- A rearranged picture has the same histogram. -/
theorem ofPicture_eq_of_perm
    (rearranged : other.cells.Perm picture.cells) :
    ofPicture other = ofPicture picture := by
  rw [ofPicture, Picture.binCounts_eq_of_perm rearranged, ofPicture]

/--
The histogram of a picture with cells divides the count of each bin by the count
of the fullest one.  So a bin is between zero and one, it is not zero if and only
if a cell's color has it, and the fullest bin is one.  Counts are exact for up to
`2 ^ 53` cells.  The counts are never flat, rearranging the cells changes
nothing, and nothing is divided by zero.
-/
theorem bins_are_shares_of_fullest (filled : ¬ picture.IsEmpty) :
    (∃ fullest < binsPerAxis * binsPerAxis,
      0 < picture.tally fullest ∧
        (∀ bin, picture.tally bin ≤ picture.tally fullest) ∧
        (ofPicture picture).bins[fullest]? = some 1 ∧
        ∀ bin < binsPerAxis * binsPerAxis, ∃ share,
          (ofPicture picture).bins[bin]? = some share ∧
            share = Float.ofNat (picture.tally bin) /
              Float.ofNat (picture.tally fullest) ∧
            0 ≤ share ∧ share ≤ 1 ∧
            ((share == 0) = false ↔
              ∃ color ∈ picture.cells, color.bin = bin)) ∧
      (ofPicture picture).bins.size = binsPerAxis * binsPerAxis ∧
      (picture.cells.size ≤ largestCount →
        ∀ bin, picture.tally bin = picture.cellsIn bin) ∧
      ¬ IsFlat picture.binCounts ∧
      (∀ other : Picture, other.cells.Perm picture.cells →
        ofPicture other = ofPicture picture ∧
          ((ofPicture picture).chiSquare (ofPicture other) == 0) = true) ∧
      Guarded.ofPicture picture = some (ofPicture picture) ∧
      ∀ other, Guarded.chiSquare (ofPicture picture) other =
        some ((ofPicture picture).chiSquare other) := by
  refine ⟨?_, size_ofPicture picture, Picture.tally_eq_cellsIn,
    not_isFlat_binCounts filled, ?_, Guarded.ofPicture_eq picture,
    Guarded.chiSquare_eq _⟩
  · obtain ⟨fullest, bound, positive, greatest⟩ :=
      Picture.exists_fullest filled
    have nonzero : picture.tally fullest ≠ 0 := Nat.ne_of_gt positive
    have small := picture.tally_le fullest
    have shares (bin) (inside : bin < binsPerAxis * binsPerAxis) :=
      getElem?_ofPicture bound positive greatest inside
    refine ⟨fullest, bound, positive, greatest, ?_, ?_⟩
    · rw [shares fullest bound, share_self nonzero small]
    · intro bin inside
      have bounds := share_bounds nonzero (greatest bin) small
      refine ⟨_, shares bin inside, rfl, bounds.1, bounds.2, ?_⟩
      rw [share_beq_zero nonzero (greatest bin) small, decide_eq_false_iff_not,
        ← Picture.tally_pos_iff, Nat.pos_iff_ne_zero]
  · intro other rearranged
    rw [ofPicture_eq_of_perm rearranged]
    exact ⟨rfl, (isZero_self picture).beq_zero⟩

/-- A red cell between two white ones. -/
def mostlyWhite : Picture where
  width := 3
  height := 1
  cells := #[Color.ofGray 255, ⟨255, 0, 0⟩, Color.ofGray 255]
  size_cells := rfl

theorem tally_mostlyWhite (bin : Nat) :
    mostlyWhite.tally bin =
      if bin = 0 then 2 else if bin = 255 then 1 else 0 := by
  have red : Color.bin ⟨255, 0, 0⟩ = 255 := by decide
  rw [Picture.tally_eq_cellsIn (by decide), Picture.cellsIn, mostlyWhite,
    ← Array.countP_toList]
  simp only [List.countP_cons, List.countP_nil, bin_white, red, beq_iff_eq]
  split_ifs
  all_goals omega

theorem red_has_half_the_share_of_white :
    ¬ mostlyWhite.IsEmpty ∧
      (ofPicture mostlyWhite).bins[0]? = some 1 ∧
      (ofPicture mostlyWhite).bins[255]? = some 0.5 := by
  have filled : ¬ mostlyWhite.IsEmpty := by decide
  obtain ⟨⟨fullest, -, -, greatest, -, shares⟩, -⟩ :=
    bins_are_shares_of_fullest filled
  have most : mostlyWhite.tally fullest = 2 := by
    have atLeast := greatest 0
    rw [tally_mostlyWhite, tally_mostlyWhite, if_pos rfl] at atLeast
    rw [tally_mostlyWhite]
    split_ifs at atLeast ⊢
    all_goals omega
  obtain ⟨white, whiteFound, rfl, -⟩ := shares 0 (by decide)
  obtain ⟨red, redFound, rfl, -⟩ := shares 255 (by decide)
  rw [most, tally_mostlyWhite, if_pos rfl] at whiteFound
  rw [most, tally_mostlyWhite, if_neg (by decide), if_pos rfl] at redFound
  have whole : Float.ofNat 2 / Float.ofNat 2 = 1 :=
    share_self (by decide) (by decide)
  have half : Float.ofNat 1 / Float.ofNat 2 = 0.5 := by decide +kernel
  exact ⟨filled, whole ▸ whiteFound, half ▸ redFound⟩

end ScreenCompare.Histogram
