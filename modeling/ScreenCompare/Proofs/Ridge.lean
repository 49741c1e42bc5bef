import Mathlib.Order.MinMax
import ScreenCompare.Proofs.Raster
import ScreenCompare.Ridge

/-!
# Ridges lie between bright and dark

Growing and shrinking go by a distance that is capped: by the width and the
height of the picture together, and by 255 (`get?_near`).  The cap is the
distance wherever no cell of the kind is closer, also if there is none at all.
So it does not matter as long as it is larger than the reach: a cell is on a
ridge exactly if a bright and a dark cell are within reach
(`ridges_between_bright_and_dark`).  In a picture too small for that, every cell
is on a ridge (`get?_ridges_of_small`).
-/

namespace ScreenCompare

namespace Point

/-- The larger of the column and the row difference. -/
def distance (first second : Point) : Nat :=
  max (max (first.x - second.x) (second.x - first.x))
    (max (first.y - second.y) (second.y - first.y))

theorem distance_le_iff {first second : Point} {reach : Nat} :
    first.distance second ≤ reach ↔
      (second.x - reach ≤ first.x ∧ first.x ≤ second.x + reach) ∧
        second.y - reach ≤ first.y ∧ first.y ≤ second.y + reach := by
  unfold distance
  omega

theorem distance_self (point : Point) : point.distance point = 0 := by
  unfold distance
  omega

end Point

namespace Mask

variable {mask : Mask} {reach x y : Nat}

/-! ## Capped distances -/

/-- The largest distance that is told apart in a picture. -/
def distanceCap (mask : Mask) : Nat :=
  min (mask.width + mask.height) 255

/--
The distance of a cell to the closest set flag, or the cap if none is closer.
-/
def cappedDistance (mask : Mask) (cell : Point) : Nat :=
  (mask.points.filter fun other => mask.getD other.x other.y false).foldl
    (fun closest other => min closest (other.distance cell)) mask.distanceCap

theorem getD_eq_true_iff :
    mask.getD x y false = true ↔ mask.get? x y = some true := by
  rw [Raster.getD_eq]
  cases mask.get? x y with
  | none => exact iff_of_false nofun nofun
  | some flag => exact Option.some_inj.symm

theorem foldl_min_le_iff {cells : List Point} {cell : Point} {start : Nat} :
    cells.foldl (fun closest other => min closest (other.distance cell)) start ≤
        reach ↔
      start ≤ reach ∨ ∃ other ∈ cells, other.distance cell ≤ reach := by
  induction cells generalizing start with
  | nil => simp
  | cons other rest inductionHypothesis =>
      simp only [List.foldl_cons, inductionHypothesis, min_le_iff, or_assoc,
        List.mem_cons, exists_eq_or_imp]

/-- Some cell with a set flag is within reach. -/
def IsNear (mask : Mask) (reach : Nat) (cell : Point) : Prop :=
  ∃ other : Point, mask.get? other.x other.y = some true ∧
    other.distance cell ≤ reach

theorem cappedDistance_le_iff {cell : Point} :
    mask.cappedDistance cell ≤ reach ↔
      mask.distanceCap ≤ reach ∨ mask.IsNear reach cell := by
  rw [cappedDistance, foldl_min_le_iff]
  apply or_congr_right
  apply exists_congr
  intro other
  rw [List.mem_filter, getD_eq_true_iff, Raster.mem_points]
  apply and_congr_left'
  exact and_iff_right_of_imp Raster.contains_of_get?

theorem cappedDistance_of_set (found : mask.get? x y = some true) :
    mask.cappedDistance ⟨x, y⟩ ≤ reach := by
  apply cappedDistance_le_iff.2
  refine .inr ⟨⟨x, y⟩, found, ?_⟩
  rw [Point.distance_self]
  exact Nat.zero_le reach

/-! ## Growing -/

/--
Growing along rows and then along columns reaches the cells within a square.
-/
theorem get?_grow_eq_true_iff (inside : mask.Contains x y) :
    (mask.grow reach).get? x y = some true ↔ mask.IsNear reach ⟨x, y⟩ := by
  have rowInside {column row : Nat}
      (found : mask.get? column row = some true) : x < mask.width ∧
        row < mask.height :=
    ⟨inside.1, (Raster.contains_of_get? found).2⟩
  rw [grow, Raster.get?_ofFn, if_pos ⟨inside.1, inside.2⟩, Option.some.injEq,
    anyFrom_iff]
  simp only [getD_eq_true_iff, Raster.get?_ofFn, Option.ite_none_right_eq_some,
    Option.some.injEq, anyFrom_iff, IsNear, Point.distance_le_iff]
  constructor
  · rintro ⟨row, lowRow, highRow, _, column, lowColumn, highColumn, found⟩
    refine ⟨⟨column, row⟩, found, ?_⟩
    dsimp only
    omega
  · rintro ⟨⟨column, row⟩, found, columnNear, rowNear⟩
    dsimp only at found columnNear rowNear
    exact ⟨row, by omega, by omega, rowInside found, column, by omega, by omega,
      found⟩

/--
The cells that count as close are those whose capped distance is within reach.
-/
theorem get?_near (small : reach < 255) (inside : mask.Contains x y) :
    (near reach mask).get? x y =
      some (decide (mask.cappedDistance ⟨x, y⟩ ≤ reach)) := by
  have cap : mask.distanceCap ≤ reach ↔ mask.width + mask.height ≤ reach := by
    unfold distanceCap
    omega
  rw [near]
  split
  · next few =>
      rw [Raster.get?_filled, if_pos ⟨inside.1, inside.2⟩,
        decide_eq_true (cappedDistance_le_iff.2 (.inl (cap.2 few)))]
  · next many =>
      have grown : (mask.grow reach).Contains x y := inside
      rcases Raster.get?_of_contains grown with ⟨flag, found⟩
      have close := @get?_grow_eq_true_iff mask reach x y inside
      rw [found, Option.some.injEq] at close
      rw [found, Option.some.injEq, Bool.eq_iff_iff, close, decide_eq_true_iff,
        cappedDistance_le_iff, cap, or_iff_right many]

end Mask

namespace GrayPicture

variable {gray : GrayPicture} {reach x y : Nat}

theorem sameSize_near (reach : Nat) (mask : Mask) :
    (Mask.near reach mask).SameSize mask := by
  unfold Mask.near
  split
  · exact ⟨rfl, rfl⟩
  · exact ⟨rfl, rfl⟩

theorem sameSize_ridges (gray : GrayPicture) (threshold : UInt8) :
    (gray.ridges threshold).SameSize gray :=
  sameSize_near ridgeReach _

/-! ## Growing and shrinking -/

/-- The cells brighter than a threshold. -/
def bright (gray : GrayPicture) (threshold : UInt8) : Mask :=
  gray.map fun brightness => decide (threshold < brightness)

/-- The cells not brighter than a threshold. -/
def dark (gray : GrayPicture) (threshold : UInt8) : Mask :=
  gray.map fun brightness => decide (brightness ≤ threshold)

theorem map_binarize (gray : GrayPicture) (threshold : UInt8)
    (test : UInt8 → Bool) :
    (gray.binarize threshold).map test = gray.map fun brightness =>
      test (if threshold < brightness then 255 else 0) := by
  simp [binarize, Raster.map, Function.comp_def]

/-- Growing the bright cells goes by the capped distance to them. -/
theorem get?_dilate_binarize (threshold : UInt8) (small : reach < 255)
    (inside : gray.Contains x y) :
    ((gray.binarize threshold).dilate reach).get? x y =
      some (if (gray.bright threshold).cappedDistance ⟨x, y⟩ ≤ reach then 255
        else 0) := by
  have white : ((gray.binarize threshold).map fun brightness =>
      decide (brightness ≠ 0)) = gray.bright threshold := by
    rw [map_binarize, bright]
    congr 1
    funext brightness
    split_ifs with brighter <;> simp [brighter]
  rw [dilate, Raster.get?_map, white, Mask.get?_near small inside,
    Option.map_some]
  simp only [decide_eq_true_iff]

/-- Shrinking the bright cells goes by the capped distance to the dark ones. -/
theorem get?_erode_binarize (threshold : UInt8) (small : reach < 255)
    (inside : gray.Contains x y) :
    ((gray.binarize threshold).erode reach).get? x y =
      some (if (gray.dark threshold).cappedDistance ⟨x, y⟩ ≤ reach then 0
        else 255) := by
  have black : ((gray.binarize threshold).map fun brightness =>
      decide (brightness = 0)) = gray.dark threshold := by
    rw [map_binarize, dark]
    congr 1
    funext brightness
    split_ifs with brighter
    · simpa using brighter
    · simpa using brighter
  rw [erode, Raster.get?_map, black, Mask.get?_near small inside,
    Option.map_some]
  simp only [decide_eq_true_iff]

/--
Every cell is bright or dark, so where shrinking leaves a cell, growing covers
it.
-/
theorem cappedDistance_bright_le (threshold : UInt8)
    (inside : gray.Contains x y)
    (distant : ¬ (gray.dark threshold).cappedDistance ⟨x, y⟩ ≤ reach) :
    (gray.bright threshold).cappedDistance ⟨x, y⟩ ≤ reach := by
  rcases Raster.get?_of_contains inside with ⟨brightness, found⟩
  apply Mask.cappedDistance_of_set
  rw [bright, Raster.get?_map, found, Option.map_some, Option.some.injEq,
    decide_eq_true_iff]
  apply Classical.byContradiction
  intro darker
  apply distant
  apply Mask.cappedDistance_of_set
  rw [dark, Raster.get?_map, found, Option.map_some,
    decide_eq_true (UInt8.not_lt.1 darker)]

/-! ## Ridges -/

theorem get?_excess {first second : GrayPicture} {high low : UInt8}
    (firstFound : first.get? x y = some high)
    (secondFound : second.get? x y = some low) (ordered : low ≤ high) :
    (first.excess second).get? x y = some (high - low) := by
  have inside := Raster.contains_of_get? firstFound
  rw [excess, Raster.get?_ofFn, if_pos ⟨inside.1, inside.2⟩, Raster.getD_eq,
    Raster.getD_eq, firstFound, secondFound, Option.getD_some, Option.getD_some,
    if_pos ordered]

/--
Shrunk cells are never brighter than grown ones, so their difference needs no
lower bound.
-/
theorem exists_grown_shrunk (threshold : UInt8) (inside : gray.Contains x y) :
    ∃ grown shrunk,
      ((gray.binarize threshold).dilate ridgeReach).get? x y = some grown ∧
      ((gray.binarize threshold).erode ridgeReach).get? x y = some shrunk ∧
      shrunk ≤ grown ∧
      (gray.ridges threshold).get? x y = some (grown - shrunk) := by
  have small : ridgeReach < 255 := by decide
  have grown := get?_dilate_binarize threshold small inside
  have shrunk := get?_erode_binarize threshold small inside
  have ordered :
      (if (gray.dark threshold).cappedDistance ⟨x, y⟩ ≤ ridgeReach then
        (0 : UInt8) else 255) ≤
      if (gray.bright threshold).cappedDistance ⟨x, y⟩ ≤ ridgeReach then
        255 else 0 := by
    split
    · exact UInt8.zero_le
    · next distant =>
        rw [if_pos (cappedDistance_bright_le threshold inside distant)]
        exact UInt8.le_refl 255
  exact ⟨_, _, grown, shrunk, ordered, get?_excess grown shrunk ordered⟩

/-- Ridges are where both capped distances are within reach. -/
theorem get?_ridges (threshold : UInt8) (inside : gray.Contains x y) :
    (gray.ridges threshold).get? x y =
      some (if (gray.bright threshold).cappedDistance ⟨x, y⟩ ≤ ridgeReach ∧
          (gray.dark threshold).cappedDistance ⟨x, y⟩ ≤ ridgeReach then 255
        else 0) := by
  have small : ridgeReach < 255 := by decide
  rcases exists_grown_shrunk threshold inside with
    ⟨grown, shrunk, grownFound, shrunkFound, _, found⟩
  rw [get?_dilate_binarize threshold small inside, Option.some.injEq]
    at grownFound
  rw [get?_erode_binarize threshold small inside, Option.some.injEq]
    at shrunkFound
  rw [found, ← grownFound, ← shrunkFound, Option.some.injEq]
  by_cases close : (gray.dark threshold).cappedDistance ⟨x, y⟩ ≤ ridgeReach
  · simp only [close, if_true, and_true, UInt8.sub_zero]
  · have covered := cappedDistance_bright_le threshold inside close
    simp only [close, covered, if_true, if_false, and_false, UInt8.sub_self]

/--
In a picture whose width and height together do not exceed the reach, all cells
are on a ridge, whatever their brightness.
-/
theorem get?_ridges_of_small (threshold : UInt8)
    (few : gray.width + gray.height ≤ ridgeReach) (inside : gray.Contains x y) :
    (gray.ridges threshold).get? x y = some 255 := by
  have capped {mask : Mask} (sameSize : mask.SameSize gray) :
      mask.cappedDistance ⟨x, y⟩ ≤ ridgeReach := by
    apply Mask.cappedDistance_le_iff.2
    left
    rw [Mask.distanceCap, sameSize.1, sameSize.2]
    exact Nat.le_trans (Nat.min_le_left ..) few
  rw [get?_ridges threshold inside,
    if_pos ⟨capped ⟨rfl, rfl⟩, capped ⟨rfl, rfl⟩⟩]

example : ridges (Raster.filled 4 3 0) 200 = Raster.filled 4 3 255 := by
  decide +kernel

/--
In a picture whose width and height together exceed the reach, a cell is on a
ridge exactly if there is a bright cell and a dark cell within reach.  Shrunk
cells are never brighter than grown ones, so their difference is never cut off.
-/
theorem ridges_between_bright_and_dark (gray : GrayPicture) (threshold : UInt8)
    (large : ridgeReach < gray.width + gray.height) :
    (gray.ridges threshold).SameSize gray ∧
      ∀ x y, gray.Contains x y →
        ((gray.bright threshold).IsNear ridgeReach ⟨x, y⟩ ∧
            (gray.dark threshold).IsNear ridgeReach ⟨x, y⟩ →
          (gray.ridges threshold).get? x y = some 255) ∧
        (¬ ((gray.bright threshold).IsNear ridgeReach ⟨x, y⟩ ∧
            (gray.dark threshold).IsNear ridgeReach ⟨x, y⟩) →
          (gray.ridges threshold).get? x y = some 0) ∧
        ∃ grown shrunk,
          ((gray.binarize threshold).dilate ridgeReach).get? x y =
            some grown ∧
          ((gray.binarize threshold).erode ridgeReach).get? x y =
            some shrunk ∧
          shrunk ≤ grown ∧
          (gray.ridges threshold).get? x y = some (grown - shrunk) := by
  have uncapped {mask : Mask} (sameSize : mask.SameSize gray) (cell : Point) :
      mask.cappedDistance cell ≤ ridgeReach ↔ mask.IsNear ridgeReach cell := by
    have capped : ¬ mask.distanceCap ≤ ridgeReach := by
      rw [Mask.distanceCap, sameSize.1, sameSize.2]
      unfold ridgeReach at *
      omega
    rw [Mask.cappedDistance_le_iff, or_iff_right capped]
  refine ⟨sameSize_ridges gray threshold, ?_⟩
  intro x y inside
  have within := and_congr
    (@uncapped (gray.bright threshold) ⟨rfl, rfl⟩ ⟨x, y⟩)
    (@uncapped (gray.dark threshold) ⟨rfl, rfl⟩ ⟨x, y⟩)
  refine ⟨?_, ?_, exists_grown_shrunk threshold inside⟩
  · intro both
    rw [get?_ridges threshold inside, if_pos (within.2 both)]
  · intro apart
    rw [get?_ridges threshold inside, if_neg (mt within.1 apart)]

/--
A row of nine cells, the first one bright: the eighth is the last on the ridge.
-/
theorem ridge_ends_at_reach :
    let gray : GrayPicture :=
      Raster.ofFn 9 1 fun x _ => if x = 0 then 255 else 0
    ridgeReach < gray.width + gray.height ∧
      (gray.ridges 200).get? 7 0 = some 255 ∧
      (gray.ridges 200).get? 8 0 = some 0 := by
  intro gray
  have large : ridgeReach < gray.width + gray.height := by decide
  have law := (ridges_between_bright_and_dark gray 200 large).2
  have distant : ¬ (gray.bright 200).cappedDistance ⟨8, 0⟩ ≤ ridgeReach := by
    decide +kernel
  refine ⟨large, ?_, ?_⟩
  · apply (law 7 0 (by decide)).1
    exact ⟨⟨⟨0, 0⟩, by decide +kernel, by decide⟩,
      ⟨7, 0⟩, by decide +kernel, by decide⟩
  · apply (law 8 0 (by decide)).2.1
    exact fun both => distant (Mask.cappedDistance_le_iff.2 (.inr both.1))

end GrayPicture

end ScreenCompare
