import ScreenCompare.Proofs.Descriptor.BrightnessSums
import ScreenCompare.Proofs.Descriptor.Selection

/-!
# Windows around eligible corners

The windows that a signature compares lie around places of a patch, and they are
cut off at the right and bottom edges of the crop, but not at the left and upper
ones.  An eligible corner is just far enough from all edges: the windows of its
patch start inside the crop and are not empty after they have been cut off
(`isWindow_place`).

To see that nothing is missing on the way, the signatures are computed once more
with guards: a difference below zero, a quotient by zero or an entry outside the
sums ends the computation without a result.  For the kept corners of a crop this
never happens (`Guarded.ofCrop_eq`).
-/

namespace ScreenCompare

/-! ## Guarded computation -/

namespace Guarded

/-- A difference that is not below zero. -/
def difference (first second : Nat) : Option Nat :=
  if second ≤ first then some (first - second) else none

/-- A quotient by something other than zero, rounded down. -/
def quotient (dividend divisor : Nat) : Option Nat :=
  if divisor = 0 then none else some (dividend / divisor)

/-- The mean brightness of the window around a cell. -/
def mean (sums : BrightnessSums) (x y : Nat) : Option Nat := do
  let left ← difference x 2
  let top ← difference y 2
  let columns ← difference sums.width 1
  let rows ← difference sums.height 1
  let right := min (x + 3) columns
  let bottom := min (y + 3) rows
  let width ← difference right left
  let height ← difference bottom top
  let bottomRight ← sums.get? right bottom
  let topLeft ← sums.get? left top
  let bottomLeft ← sums.get? left bottom
  let topRight ← sums.get? right top
  let rest ← difference (bottomRight + topLeft) bottomLeft
  let total ← difference rest topRight
  quotient total (width * height)

/-- The outcome of one comparison around a cell. -/
def outcome (sums : BrightnessSums) (point : Point) (test : PatchTest) :
    Option Bool := do
  let cornerX ← difference point.x Keypoint.patchRadius
  let cornerY ← difference point.y Keypoint.patchRadius
  let first ← mean sums (cornerX + test.firstX + 1) (cornerY + test.firstY + 1)
  let second ←
    mean sums (cornerX + test.secondX + 1) (cornerY + test.secondY + 1)
  return decide (first < second)

/-- The signature of the patch around a cell. -/
def ofPatch (sums : BrightnessSums) (point : Point) : Option Signature := do
  let outcomes ← PatchTest.all.mapM (outcome sums point)
  return {
    first := Signature.word (outcomes.take 128)
    second := Signature.word (outcomes.drop 128) }

/-- The signatures of the patches around some cells. -/
def describe (gray : GrayPicture) (points : List Point) :
    Option (List Signature) :=
  (points.filter fun point => !decide (Signature.TooClose gray point)).mapM
    (ofPatch (BrightnessSums.ofGray gray))

/-- The descriptor of a crop, if the crop has one. -/
def ofCrop (crop : GrayPicture) : Option (Option Descriptor) :=
  if crop.width < Descriptor.smallestCrop ∨
      crop.height < Descriptor.smallestCrop then some none
  else
    match Keypoint.kept crop with
    | [] => some none
    | keypoints =>
        (describe crop (keypoints.map Keypoint.point)).map fun signatures =>
          some (Descriptor.ofSignatures signatures)

theorem difference_eq {first second : Nat} (ordered : second ≤ first) :
    difference first second = some (first - second) :=
  if_pos ordered

theorem quotient_eq {dividend divisor : Nat} (nonzero : divisor ≠ 0) :
    quotient dividend divisor = some (dividend / divisor) :=
  if_neg nonzero

theorem mapM_eq {α β : Type} {partial? : α → Option β} {value : α → β}
    {entries : List α}
    (defined : ∀ entry ∈ entries, partial? entry = some (value entry)) :
    entries.mapM partial? = some (entries.map value) := by
  induction entries with
  | nil => rfl
  | cons entry rest inductionHypothesis =>
      rw [List.forall_mem_cons] at defined
      rw [List.mapM_cons, defined.1, inductionHypothesis defined.2]
      rfl

end Guarded

/-! ## Windows inside a crop -/

variable {crop : GrayPicture} {corner : Keypoint} {x y a b : Nat}

/-- The window around a cell starts inside the crop. -/
structure IsWindow (crop : GrayPicture) (x y : Nat) : Prop where
  left : 2 ≤ x
  top : 2 ≤ y
  columns : x ≤ crop.width
  rows : y ≤ crop.height
  wide : x - 2 < crop.width
  high : y - 2 < crop.height

namespace IsWindow

theorem left_lt_right (window : IsWindow crop x y) :
    x - 2 < min (x + 3) crop.width := by
  have := window.wide
  omega

theorem top_lt_bottom (window : IsWindow crop x y) :
    y - 2 < min (y + 3) crop.height := by
  have := window.high
  omega

theorem area_pos (window : IsWindow crop x y) :
    0 < (min (x + 3) crop.width - (x - 2)) *
      (min (y + 3) crop.height - (y - 2)) :=
  Nat.mul_pos (Nat.sub_pos_of_lt window.left_lt_right)
    (Nat.sub_pos_of_lt window.top_lt_bottom)

/-- The mean of a window is the brightness of its cells over their number. -/
theorem mean_eq (window : IsWindow crop x y) :
    (BrightnessSums.ofGray crop).mean x y =
      crop.total (x - 2) (y - 2) (min (x + 3) crop.width)
          (min (y + 3) crop.height) /
        ((min (x + 3) crop.width - (x - 2)) *
          (min (y + 3) crop.height - (y - 2))) := by
  rw [BrightnessSums.mean, BrightnessSums.width_ofGray,
    BrightnessSums.height_ofGray, Nat.add_sub_cancel, Nat.add_sub_cancel,
    BrightnessSums.sumOver_ofGray (Nat.le_of_lt window.left_lt_right)
      (Nat.le_of_lt window.top_lt_bottom) (Nat.min_le_right ..)
      (Nat.min_le_right ..)]

/-- Words that hold the sums give the same mean, whatever they cut off. -/
theorem mean_of_words (window : IsWindow crop x y) :
    ((BrightnessSums.ofGray crop).wordSumOver (x - 2) (y - 2)
        (min (x + 3) crop.width) (min (y + 3) crop.height)).toNat /
      ((min (x + 3) crop.width - (x - 2)) *
        (min (y + 3) crop.height - (y - 2))) =
      (BrightnessSums.ofGray crop).mean x y := by
  have wide : min (x + 3) crop.width - (x - 2) ≤ 5 := by omega
  have high : min (y + 3) crop.height - (y - 2) ≤ 5 := by omega
  have few := Nat.le_trans (Nat.mul_le_mul wide high)
    (by decide : 5 * 5 ≤ 2 ^ 24)
  rw [BrightnessSums.toNat_wordSumOver (Nat.le_of_lt window.left_lt_right)
    (Nat.le_of_lt window.top_lt_bottom) (Nat.min_le_right ..)
    (Nat.min_le_right ..) few, BrightnessSums.mean,
    BrightnessSums.width_ofGray, BrightnessSums.height_ofGray,
    Nat.add_sub_cancel, Nat.add_sub_cancel]

/-- The mean of a window is a brightness. -/
theorem mean_le (window : IsWindow crop x y) :
    (BrightnessSums.ofGray crop).mean x y ≤ 255 := by
  rw [window.mean_eq, Nat.div_le_iff_le_mul_add_pred window.area_pos]
  exact Nat.le_trans (crop.total_le ..) (Nat.le_add_right ..)

theorem guardedMean_eq (window : IsWindow crop x y) :
    Guarded.mean (BrightnessSums.ofGray crop) x y =
      some ((BrightnessSums.ofGray crop).mean x y) := by
  have columns := Nat.le_of_lt window.left_lt_right
  have rows := Nat.le_of_lt window.top_lt_bottom
  have right := Nat.min_le_right (x + 3) crop.width
  have bottom := Nat.min_le_right (y + 3) crop.height
  obtain ⟨strip, below, all⟩ := crop.total_corners columns rows
  rw [window.mean_eq]
  simp only [Guarded.mean, BrightnessSums.width_ofGray,
    BrightnessSums.height_ofGray, Option.bind_eq_bind,
    Guarded.difference_eq window.left, Guarded.difference_eq window.top,
    Guarded.difference_eq (Nat.le_add_left 1 _), Nat.add_sub_cancel,
    Guarded.difference_eq columns, Guarded.difference_eq rows,
    Option.bind_some, BrightnessSums.get?_ofGray right bottom,
    BrightnessSums.get?_ofGray (Nat.le_trans columns right)
      (Nat.le_trans rows bottom),
    BrightnessSums.get?_ofGray (Nat.le_trans columns right) bottom,
    BrightnessSums.get?_ofGray right (Nat.le_trans rows bottom)]
  rw [Guarded.difference_eq (by omega), Option.bind_some,
    Guarded.difference_eq (by omega), Option.bind_some,
    Guarded.quotient_eq (Nat.ne_of_gt window.area_pos)]
  congr 2
  omega

end IsWindow

/-- Around an eligible corner every place of the patch has a window. -/
theorem isWindow_place (eligible : corner.Eligible crop) (inColumns : a ≤ 30)
    (inRows : b ≤ 30) :
    IsWindow crop (corner.point.x - Keypoint.patchRadius + a + 1)
      (corner.point.y - Keypoint.patchRadius + b + 1) := by
  unfold Keypoint.Eligible Keypoint.patchRadius at eligible
  unfold Keypoint.patchRadius
  constructor <;> omega

theorem places_le :
    ∀ test ∈ PatchTest.all, test.firstX ≤ 30 ∧ test.firstY ≤ 30 ∧
      test.secondX ≤ 30 ∧ test.secondY ≤ 30 := by
  decide +kernel

/--
The circle around a cell that is tested for a corner lies inside the crop.
-/
theorem contains_circle {offset : Int × Int} (listed : offset ∈ Keypoint.circle)
    (row : y ∈ List.range' 3 (crop.height - 6))
    (column : x ∈ List.range' 3 (crop.width - 6)) :
    0 ≤ x + offset.1 ∧ 0 ≤ y + offset.2 ∧
      crop.Contains (x + offset.1).toNat (y + offset.2).toNat := by
  have near : ∀ offset ∈ Keypoint.circle, -3 ≤ offset.1 ∧ offset.1 ≤ 3 ∧
      -3 ≤ offset.2 ∧ offset.2 ≤ 3 := by
    decide
  have reach := near offset listed
  rw [List.mem_range'_1] at row column
  rw [Raster.Contains]
  omega

/-! ## The guards hold -/

namespace Guarded

theorem outcome_eq (eligible : corner.Eligible crop) {test : PatchTest}
    (listed : test ∈ PatchTest.all) :
    outcome (BrightnessSums.ofGray crop) corner.point test =
      some (Signature.outcome (BrightnessSums.ofGray crop) corner.point
        test) := by
  obtain ⟨firstX, firstY, secondX, secondY⟩ := places_le test listed
  have first := isWindow_place eligible firstX firstY
  have second := isWindow_place eligible secondX secondY
  have columns := Nat.le_of_lt eligible.1
  have rows := Nat.le_of_lt eligible.2.1
  rw [outcome, difference_eq columns, difference_eq rows]
  simp only [Option.bind_eq_bind, Option.bind_some, first.guardedMean_eq,
    second.guardedMean_eq]
  rfl

theorem ofPatch_eq (eligible : corner.Eligible crop) :
    ofPatch (BrightnessSums.ofGray crop) corner.point =
      some (Signature.ofPatch (BrightnessSums.ofGray crop) corner.point) := by
  rw [ofPatch, mapM_eq fun test listed => outcome_eq eligible listed]
  rfl

theorem not_tooClose (eligible : corner.Eligible crop) :
    ¬ Signature.TooClose crop corner.point := by
  unfold Keypoint.Eligible at eligible
  unfold Signature.TooClose
  omega

/-- Corners that are all eligible are all described. -/
theorem describe_eq {corners : List Keypoint}
    (eligible : ∀ corner ∈ corners, corner.Eligible crop) :
    describe crop (corners.map Keypoint.point) =
      some (Signature.describe crop (corners.map Keypoint.point)) := by
  have roomy : ∀ point ∈ corners.map Keypoint.point,
      ¬ Signature.TooClose crop point := by
    rw [List.forall_mem_map]
    intro corner member
    exact not_tooClose (eligible corner member)
  have all : (corners.map Keypoint.point).filter (fun point =>
      !decide (Signature.TooClose crop point)) =
        corners.map Keypoint.point := by
    rw [List.filter_eq_self]
    intro point member
    simp [roomy point member]
  rw [describe, all, Signature.describe_eq_map roomy]
  apply mapM_eq
  rw [List.forall_mem_map]
  intro corner member
  exact ofPatch_eq (eligible corner member)

theorem eligible_of_mem_kept (isKept : corner ∈ Keypoint.kept crop) :
    corner.Eligible crop :=
  (Keypoint.mem_eligibleCorners_iff.1
    ((Keypoint.sublist_kept crop).subset isKept)).2

/-- The guards never end the description of a crop. -/
theorem ofCrop_eq (crop : GrayPicture) :
    ofCrop crop = some (Descriptor.ofCrop? crop) := by
  rw [ofCrop, Descriptor.ofCrop?]
  split
  · rfl
  · have described :=
      describe_eq fun corner (isKept : corner ∈ Keypoint.kept crop) =>
        eligible_of_mem_kept isKept
    cases kept : Keypoint.kept crop with
    | nil => rfl
    | cons first rest =>
        rw [kept] at described
        simp only [described, Option.map_some]

end Guarded

namespace Descriptor

/--
Around every eligible corner of a crop, every place of the patch has a window
that starts inside the crop, is not empty and is read from entries of the sums;
its mean is the brightness of its cells over their number and is itself a
brightness.  Entries that are kept as words of 32 bits give the same mean.  The
places of all comparisons are in the patch, so no eligible corner is too close
to an edge to be described, and the descriptor is computed without a difference
below zero, a quotient by zero or an entry outside the sums.  The circles that
are tested for corners lie inside the crop as well.
-/
theorem windows_stay_inside_crop (crop : GrayPicture) :
    (∀ corner ∈ Keypoint.eligibleCorners crop, ∀ a ≤ 30, ∀ b ≤ 30,
      let x := corner.point.x - 15 + a + 1
      let y := corner.point.y - 15 + b + 1
      let right := min (x + 3) crop.width
      let bottom := min (y + 3) crop.height
      15 ≤ corner.point.x ∧ 15 ≤ corner.point.y ∧ 2 ≤ x ∧ 2 ≤ y ∧
        x ≤ crop.width ∧ y ≤ crop.height ∧
        x - 2 < right ∧ y - 2 < bottom ∧
        (BrightnessSums.ofGray crop).Contains right bottom ∧
        Guarded.mean (BrightnessSums.ofGray crop) x y =
          some ((BrightnessSums.ofGray crop).mean x y) ∧
        (BrightnessSums.ofGray crop).mean x y =
          crop.total (x - 2) (y - 2) right bottom /
            ((right - (x - 2)) * (bottom - (y - 2))) ∧
        (BrightnessSums.ofGray crop).mean x y ≤ 255 ∧
        ((BrightnessSums.ofGray crop).wordSumOver (x - 2) (y - 2) right
            bottom).toNat / ((right - (x - 2)) * (bottom - (y - 2))) =
          (BrightnessSums.ofGray crop).mean x y) ∧
      (∀ test ∈ PatchTest.all, test.firstX ≤ 30 ∧ test.firstY ≤ 30 ∧
        test.secondX ≤ 30 ∧ test.secondY ≤ 30) ∧
      (Signature.describe crop
        ((Keypoint.eligibleCorners crop).map Keypoint.point)).length =
          (Keypoint.eligibleCorners crop).length ∧
      Guarded.ofCrop crop = some (ofCrop? crop) ∧
      ∀ y ∈ List.range' 3 (crop.height - 6),
        ∀ x ∈ List.range' 3 (crop.width - 6),
          ∀ offset ∈ Keypoint.circle, 0 ≤ x + offset.1 ∧ 0 ≤ y + offset.2 ∧
            crop.Contains (x + offset.1).toNat (y + offset.2).toNat := by
  refine ⟨?_, places_le, ?_, Guarded.ofCrop_eq crop, ?_⟩
  · intro corner member a inColumns b inRows x y right bottom
    have eligible := (Keypoint.mem_eligibleCorners_iff.1 member).2
    have window : IsWindow crop x y := isWindow_place eligible inColumns inRows
    have inside : (BrightnessSums.ofGray crop).Contains right bottom := by
      rw [Raster.Contains, BrightnessSums.width_ofGray,
        BrightnessSums.height_ofGray]
      omega
    exact ⟨Nat.le_of_lt eligible.1, Nat.le_of_lt eligible.2.1, window.left,
      window.top, window.columns, window.rows, window.left_lt_right,
      window.top_lt_bottom, inside, window.guardedMean_eq, window.mean_eq,
      window.mean_le, window.mean_of_words⟩
  · rw [Signature.describe_eq_map, List.length_map, List.length_map]
    rw [List.forall_mem_map]
    intro corner member
    exact Guarded.not_tooClose (Keypoint.mem_eligibleCorners_iff.1 member).2
  · intro y row x column offset listed
    exact contains_circle listed row column

/--
In a crop of the smallest size the patch of the only eligible corner reaches all
four edges: its first window starts in the upper left cell, and its last one is
cut down to the four cells in the lower right.
-/
theorem windows_reach_all_edges :
    (∃ corner ∈ Keypoint.eligibleCorners Keypoint.dot,
      corner.point = ⟨16, 16⟩) ∧
      (BrightnessSums.ofGray Keypoint.dot).mean 2 2 =
        Keypoint.dot.total 0 0 5 5 / 25 ∧
      (BrightnessSums.ofGray Keypoint.dot).mean 32 32 =
        Keypoint.dot.total 30 30 32 32 / 4 := by
  obtain ⟨corner, member, place⟩ :
      ∃ corner ∈ Keypoint.eligibleCorners Keypoint.dot,
        corner.point = ⟨16, 16⟩ :=
    ⟨_, Keypoint.mem_eligibleCorners_dot, rfl⟩
  have width : Keypoint.dot.width = 32 := rfl
  have height : Keypoint.dot.height = 32 := rfl
  have whole : min 5 32 = 5 := rfl
  have cut : min 35 32 = 32 := rfl
  obtain ⟨around, _⟩ := windows_stay_inside_crop Keypoint.dot
  obtain ⟨_, _, _, _, _, _, _, _, _, _, first, _⟩ :=
    around corner member 0 (by decide) 0 (by decide)
  obtain ⟨_, _, _, _, _, _, _, _, _, _, last, _⟩ :=
    around corner member 30 (by decide) 30 (by decide)
  simp only [place, width, height, Nat.reduceAdd, Nat.reduceSub, whole, cut,
    Nat.reduceMul] at first last
  exact ⟨⟨corner, member, place⟩, first, last⟩

end Descriptor

end ScreenCompare
