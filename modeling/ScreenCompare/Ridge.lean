import ScreenCompare.Color

/-!
# Ridges

A ridge is where dark meets bright.  The gray picture is made black and white by
a threshold; the white area is then grown by a fixed reach and, separately,
shrunk by it.  A cell is on a ridge if the grown area covers it and the shrunk
area does not.

Distance is the larger of the column and the row difference, and cells outside
the picture count neither as white nor as black.  In a picture so small that its
width and height together do not exceed the reach, no distance is larger than
the reach, so every cell counts as close to both kinds, even to a kind that does
not occur.
-/

namespace ScreenCompare

/-- Some number among the `count` numbers from `start` on passes a test. -/
def anyFrom (test : Nat → Bool) : (start count : Nat) → Bool
  | _, 0 => false
  | start, count + 1 => test start || anyFrom test (start + 1) count

theorem anyFrom_iff {test : Nat → Bool} {start count : Nat} :
    anyFrom test start count = true ↔
      ∃ number, start ≤ number ∧ number < start + count ∧
        test number = true := by
  induction count generalizing start with
  | zero =>
      simp only [anyFrom, Bool.false_eq_true, false_iff]
      rintro ⟨number, low, high, _⟩
      omega
  | succ count inductionHypothesis =>
      simp only [anyFrom, Bool.or_eq_true, inductionHypothesis]
      constructor
      · rintro (here | ⟨number, low, high, passes⟩)
        · exact ⟨start, by omega, by omega, here⟩
        · exact ⟨number, by omega, by omega, passes⟩
      · rintro ⟨number, low, high, passes⟩
        by_cases here : number = start
        · exact Or.inl (here ▸ passes)
        · exact Or.inr ⟨number, by omega, by omega, passes⟩

/-- A raster of flags. -/
abbrev Mask := Raster Bool

namespace Mask

/-- The flags grown by a reach along rows and along columns. -/
def grow (reach : Nat) (mask : Mask) : Mask :=
  let alongRows : Mask :=
    Raster.ofFn mask.width mask.height fun x y =>
      anyFrom (fun column => mask.getD column y false)
        (x - reach) (x + reach + 1 - (x - reach))
  Raster.ofFn mask.width mask.height fun x y =>
    anyFrom (fun row => alongRows.getD x row false)
      (y - reach) (y + reach + 1 - (y - reach))

/--
The cells that count as close to a set flag.  A mask whose width and height
together do not exceed the reach is too small to have a distant cell.
-/
def near (reach : Nat) (mask : Mask) : Mask :=
  if mask.width + mask.height ≤ reach then
    Raster.filled mask.width mask.height true
  else
    mask.grow reach

end Mask

namespace GrayPicture

/-- Cells brighter than the threshold become white, all others black. -/
def binarize (gray : GrayPicture) (threshold : UInt8) : GrayPicture :=
  gray.map fun brightness => if threshold < brightness then 255 else 0

/-- Cells close to a cell that is not black become white, all others black. -/
def dilate (gray : GrayPicture) (reach : Nat) : GrayPicture :=
  (Mask.near reach (gray.map fun brightness => decide (brightness ≠ 0))).map
    fun close => if close then 255 else 0

/-- Cells close to a black cell become black, all others white. -/
def erode (gray : GrayPicture) (reach : Nat) : GrayPicture :=
  (Mask.near reach (gray.map fun brightness => decide (brightness = 0))).map
    fun close => if close then 0 else 255

/--
How much brighter one gray picture is than another, and 0 where it is not.
-/
def excess (bright dark : GrayPicture) : GrayPicture :=
  Raster.ofFn bright.width bright.height fun x y =>
    let high := bright.getD x y 0
    let low := dark.getD x y 0
    if low ≤ high then high - low else 0

/-- How far a ridge extends to either side of an edge. -/
def ridgeReach : Nat := 7

/-- The ridges of a gray picture: white on a ridge, black elsewhere. -/
def ridges (gray : GrayPicture) (threshold : UInt8) : GrayPicture :=
  let binary := gray.binarize threshold
  (binary.dilate ridgeReach).excess (binary.erode ridgeReach)

end GrayPicture

end ScreenCompare
