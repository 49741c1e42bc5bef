import Mathlib.Algebra.BigOperators.Intervals
import Mathlib.Algebra.Order.BigOperators.Group.Finset
import ScreenCompare.Descriptor.Signature
import ScreenCompare.Proofs.Raster

/-!
# Sums of brightness over rectangles

The sums of a picture are closed cell by cell in row order, each from three
entries that have been closed before.  So every entry is the brightness of the
cells left of it and above it (`getD_ofGray`).  The sum over a rectangle is made
up of the entries at its four corners, and on the way no more is taken away than
is there (`total_corners`).

Entries are whole numbers of any size.  In a large picture they can exceed a word
of 32 bits, but what a word cuts off cancels again in the sum over a rectangle
that is not too large itself (`toNat_wordSumOver`).
-/

namespace ScreenCompare

namespace GrayPicture

/-- The brightness of a cell; there is none outside the picture. -/
def brightness (gray : GrayPicture) (x y : Nat) : Nat :=
  (gray.getD x y 0).toNat

/--
The brightness of the cells from `left` up to but without `right`, and from `top`
up to but without `bottom`.
-/
def total (gray : GrayPicture) (left top right bottom : Nat) : Nat :=
  ∑ y ∈ Finset.Ico top bottom, ∑ x ∈ Finset.Ico left right, gray.brightness x y

variable {gray : GrayPicture} {left middle right top center bottom : Nat}

theorem total_of_no_rows (left right row : Nat) :
    gray.total left row right row = 0 := by
  rw [total, Finset.Ico_self, Finset.sum_empty]

theorem total_of_no_columns (column top bottom : Nat) :
    gray.total column top column bottom = 0 := by
  simp [total]

theorem total_cell (x y : Nat) :
    gray.total x y (x + 1) (y + 1) = gray.brightness x y := by
  simp [total]

/-- A rectangle is divided between two columns. -/
theorem total_add_columns (first : left ≤ middle) (second : middle ≤ right) :
    gray.total left top middle bottom + gray.total middle top right bottom =
      gray.total left top right bottom := by
  rw [total, total, total, ← Finset.sum_add_distrib]
  apply Finset.sum_congr rfl
  intro y _
  exact Finset.sum_Ico_consecutive _ first second

/-- A rectangle is divided between two rows. -/
theorem total_add_rows (first : top ≤ center) (second : center ≤ bottom) :
    gray.total left top right center + gray.total left center right bottom =
      gray.total left top right bottom :=
  Finset.sum_Ico_consecutive _ first second

/--
The cells left of and above the lower right corner of a rectangle are those of
the rectangle, of the strips left of it and above it, and of the block that lies
beside both strips.
-/
theorem total_corners (columns : left ≤ right) (rows : top ≤ bottom) :
    ∃ strip, gray.total 0 0 left bottom = gray.total 0 0 left top + strip ∧
      gray.total 0 0 right bottom =
        gray.total 0 0 right top + strip + gray.total left top right bottom := by
  have above : gray.total 0 0 left top + gray.total 0 top left bottom =
      gray.total 0 0 left bottom :=
    gray.total_add_rows (Nat.zero_le top) rows
  have wide : gray.total 0 0 right top + gray.total 0 top right bottom =
      gray.total 0 0 right bottom :=
    gray.total_add_rows (Nat.zero_le top) rows
  have split : gray.total 0 top left bottom +
      gray.total left top right bottom = gray.total 0 top right bottom :=
    gray.total_add_columns (Nat.zero_le left) columns
  exact ⟨gray.total 0 top left bottom, by omega, by omega⟩

theorem brightness_le (gray : GrayPicture) (x y : Nat) :
    gray.brightness x y ≤ 255 :=
  Nat.le_of_lt_succ (UInt8.toNat_lt _)

/-- No rectangle is brighter than a white one. -/
theorem total_le (gray : GrayPicture) (left top right bottom : Nat) :
    gray.total left top right bottom ≤
      (right - left) * (bottom - top) * 255 := by
  have row (y : Nat) : ∑ x ∈ Finset.Ico left right, gray.brightness x y ≤
      (right - left) * 255 := by
    have bound := Finset.sum_le_card_nsmul (Finset.Ico left right) _ 255
      fun x _ => gray.brightness_le x y
    rwa [Nat.card_Ico, Nat.nsmul_eq_mul] at bound
  have bound := Finset.sum_le_card_nsmul (Finset.Ico top bottom) _
    ((right - left) * 255) fun y _ => row y
  rw [Nat.card_Ico, Nat.nsmul_eq_mul] at bound
  calc
    gray.total left top right bottom
      ≤ (bottom - top) * ((right - left) * 255) := bound
    _ = (right - left) * (bottom - top) * 255 := by
      rw [← Nat.mul_assoc, Nat.mul_comm (bottom - top)]

end GrayPicture

namespace BrightnessSums

variable {gray : GrayPicture} {sums : BrightnessSums} {row column : Nat}

/-! ## Closing entries -/

/--
Some rows have been closed, and some columns of the row after them.  The other
entries are still zero.
-/
structure IsClosed (gray : GrayPicture) (row column : Nat)
    (sums : BrightnessSums) : Prop where
  width : sums.width = gray.width + 1
  height : sums.height = gray.height + 1
  entry : ∀ x ≤ gray.width, ∀ y ≤ gray.height, sums.getD x y 0 =
    if y ≤ row ∨ (y = row + 1 ∧ x ≤ column) then gray.total 0 0 x y else 0

namespace IsClosed

theorem filled (gray : GrayPicture) :
    IsClosed gray 0 0 (Raster.filled (gray.width + 1) (gray.height + 1) 0) where
  width := rfl
  height := rfl
  entry x inColumns y inRows := by
    rw [Raster.getD_eq, Raster.get?_filled,
      if_pos ⟨Nat.lt_succ_of_le inColumns, Nat.lt_succ_of_le inRows⟩,
      Option.getD_some]
    split
    · next closed =>
        rcases closed with above | ⟨_, atEdge⟩
        · rw [Nat.le_zero.1 above, GrayPicture.total_of_no_rows]
        · rw [Nat.le_zero.1 atEdge, GrayPicture.total_of_no_columns]
    · rfl

theorem entry_of_le {x y : Nat} (closed : IsClosed gray row column sums)
    (inColumns : x ≤ gray.width) (inRows : y ≤ gray.height)
    (before : y ≤ row ∨ (y = row + 1 ∧ x ≤ column)) :
    sums.getD x y 0 = gray.total 0 0 x y := by
  rw [closed.entry x inColumns y inRows, if_pos before]

/--
The cell, the entries left of it and above it, less the entry beside both.
-/
theorem close_value (closed : IsClosed gray row column sums)
    (inColumns : column < gray.width) (inRows : row < gray.height) :
    (gray.getD column row 0).toNat + sums.getD column (row + 1) 0 +
        sums.getD (column + 1) row 0 - sums.getD column row 0 =
      gray.total 0 0 (column + 1) (row + 1) := by
  obtain ⟨strip, below, all⟩ :=
    gray.total_corners (Nat.le_add_right column 1) (Nat.le_add_right row 1)
  rw [GrayPicture.total_cell, GrayPicture.brightness] at all
  rw [closed.entry_of_le (by omega) (by omega) (.inr ⟨rfl, Nat.le_refl _⟩),
    closed.entry_of_le (by omega) (by omega) (.inl (Nat.le_refl _)),
    closed.entry_of_le (by omega) (by omega) (.inl (Nat.le_refl _))]
  omega

theorem close (closed : IsClosed gray row column sums)
    (inColumns : column < gray.width) (inRows : row < gray.height) :
    IsClosed gray row (column + 1) (sums.close gray ⟨column, row⟩) where
  width := (Raster.width_set ..).trans closed.width
  height := (Raster.height_set ..).trans closed.height
  entry x columnInside y rowInside := by
    have inside : sums.Contains (column + 1) (row + 1) := by
      rw [Raster.Contains, closed.width, closed.height]
      omega
    have other := closed.entry x columnInside y rowInside
    rw [Raster.getD_eq] at other
    rw [BrightnessSums.close, closed.close_value inColumns inRows,
      Raster.getD_eq, Raster.get?_set]
    by_cases here : x = column + 1 ∧ y = row + 1
    · rw [if_pos ⟨here.1, here.2, inside⟩, if_pos (by omega), here.1, here.2,
        Option.getD_some]
    · rw [if_neg fun same => here ⟨same.1, same.2.1⟩, other]
      have sameCase : (y ≤ row ∨ (y = row + 1 ∧ x ≤ column)) ↔
          (y ≤ row ∨ (y = row + 1 ∧ x ≤ column + 1)) := by
        omega
      simp only [sameCase]

theorem closeColumns (closed : IsClosed gray row 0 sums)
    (inRows : row < gray.height) {columns : Nat}
    (inColumns : columns ≤ gray.width) :
    IsClosed gray row columns
      (((List.range columns).map fun x => Point.mk x row).foldl
        (BrightnessSums.close gray) sums) := by
  induction columns with
  | zero => exact closed
  | succ columns inductionHypothesis =>
      rw [List.range_succ, List.map_append, List.foldl_append]
      exact (inductionHypothesis (Nat.le_of_succ_le inColumns)).close
        inColumns inRows

/-- A row with all columns closed is one more closed row. -/
theorem nextRow (closed : IsClosed gray row gray.width sums) :
    IsClosed gray (row + 1) 0 sums where
  width := closed.width
  height := closed.height
  entry x inColumns y inRows := by
    rw [closed.entry x inColumns y inRows]
    split
    · rw [if_pos (by omega)]
    · split
      · next closedNext =>
          obtain rfl : x = 0 := by omega
          rw [GrayPicture.total_of_no_columns]
      · rfl

theorem closeRows {rows : Nat} (inRows : rows ≤ gray.height) :
    IsClosed gray rows 0
      (((List.range rows).flatMap fun y =>
        (List.range gray.width).map fun x => Point.mk x y).foldl
          (BrightnessSums.close gray)
          (Raster.filled (gray.width + 1) (gray.height + 1) 0)) := by
  induction rows with
  | zero => exact filled gray
  | succ rows inductionHypothesis =>
      rw [List.range_succ, List.flatMap_append, List.foldl_append,
        List.flatMap_singleton]
      exact ((inductionHypothesis (Nat.le_of_succ_le inRows)).closeColumns
        inRows (Nat.le_refl _)).nextRow

end IsClosed

/-! ## The sums of a picture -/

theorem isClosed_ofGray (gray : GrayPicture) :
    IsClosed gray gray.height 0 (ofGray gray) :=
  IsClosed.closeRows (Nat.le_refl _)

@[simp]
theorem width_ofGray (gray : GrayPicture) :
    (ofGray gray).width = gray.width + 1 :=
  (isClosed_ofGray gray).width

@[simp]
theorem height_ofGray (gray : GrayPicture) :
    (ofGray gray).height = gray.height + 1 :=
  (isClosed_ofGray gray).height

/-- Every entry is the brightness of the cells left of it and above it. -/
theorem getD_ofGray {x y : Nat} (inColumns : x ≤ gray.width)
    (inRows : y ≤ gray.height) :
    (ofGray gray).getD x y 0 = gray.total 0 0 x y :=
  (isClosed_ofGray gray).entry_of_le inColumns inRows (.inl inRows)

theorem get?_ofGray {x y : Nat} (inColumns : x ≤ gray.width)
    (inRows : y ≤ gray.height) :
    (ofGray gray).get? x y = some (gray.total 0 0 x y) := by
  have inside : (ofGray gray).Contains x y := by
    rw [Raster.Contains, width_ofGray, height_ofGray]
    omega
  obtain ⟨entry, found⟩ := Raster.get?_of_contains inside
  rw [found, ← getD_ofGray inColumns inRows, Raster.getD_eq, found,
    Option.getD_some]

/--
The entries at the corners of a rectangle give the brightness of its cells.
-/
theorem sumOver_ofGray {left top right bottom : Nat} (columns : left ≤ right)
    (rows : top ≤ bottom) (inColumns : right ≤ gray.width)
    (inRows : bottom ≤ gray.height) :
    (ofGray gray).sumOver left top right bottom =
      gray.total left top right bottom := by
  obtain ⟨strip, below, all⟩ := gray.total_corners columns rows
  rw [sumOver, getD_ofGray inColumns inRows, getD_ofGray (by omega) (by omega),
    getD_ofGray (by omega) inRows, getD_ofGray inColumns (by omega)]
  omega

/-! ## Sums in words -/

/-- An entry, kept as a word of 32 bits. -/
def wordAt (sums : BrightnessSums) (x y : Nat) : UInt32 :=
  UInt32.ofNat (sums.getD x y 0)

/-- The sum over a rectangle, in words. -/
def wordSumOver (sums : BrightnessSums) (left top right bottom : Nat) :
    UInt32 :=
  sums.wordAt right bottom + sums.wordAt left top - sums.wordAt left bottom -
    sums.wordAt right top

/--
Over a rectangle of at most 2^24 cells words give the same sum, however large the
picture is.
-/
theorem toNat_wordSumOver {left top right bottom : Nat} (columns : left ≤ right)
    (rows : top ≤ bottom) (inColumns : right ≤ gray.width)
    (inRows : bottom ≤ gray.height)
    (few : (right - left) * (bottom - top) ≤ 2 ^ 24) :
    ((ofGray gray).wordSumOver left top right bottom).toNat =
      (ofGray gray).sumOver left top right bottom := by
  obtain ⟨strip, below, all⟩ := gray.total_corners columns rows
  have fits : gray.total left top right bottom < UInt32.size := by
    have bound := gray.total_le left top right bottom
    have size : UInt32.size = 2 ^ 32 := rfl
    omega
  have cancels : (ofGray gray).wordSumOver left top right bottom =
      UInt32.ofNat (gray.total left top right bottom) := by
    rw [wordSumOver, wordAt, wordAt, wordAt, wordAt,
      getD_ofGray inColumns inRows, getD_ofGray (by omega) (by omega),
      getD_ofGray (by omega) inRows, getD_ofGray inColumns (by omega), below,
      all]
    simp only [UInt32.ofNat_add]
    grind
  rw [cancels, UInt32.toNat_ofNat_of_lt' fits,
    sumOver_ofGray columns rows inColumns inRows]

end BrightnessSums

end ScreenCompare
