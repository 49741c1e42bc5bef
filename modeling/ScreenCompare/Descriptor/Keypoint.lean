import ScreenCompare.Color

/-!
# Keypoints

A keypoint is a corner of a gray picture: a cell around which nine neighboring
cells of a circle of sixteen are all clearly brighter, or all clearly darker,
than the cell itself.  Its strength is the largest threshold with which it is
still a corner.

The circle is read in a fixed order in which the entry below the cell and the
entry right of it have exchanged places.  "In a row" refers to that order, taken
as a ring.

Only corners far enough from the edges for a whole patch around them are
eligible, and of those the strongest ones are kept, in row order.
-/

namespace ScreenCompare

/-- A corner of a gray picture and its strength. -/
structure Keypoint where
  point : Point
  strength : Nat
deriving DecidableEq, Repr

namespace Keypoint

/-! ## Corners -/

/-- The sixteen offsets of the circle of radius three, in reading order. -/
def circle : List (Int × Int) :=
  [(0, -3), (1, -3), (2, -2), (3, -1), (0, 3), (3, 1), (2, 2), (1, 3), (3, 0),
    (-1, 3), (-2, 2), (-3, 1), (-3, 0), (-3, -1), (-2, -2), (-1, -3)]

/-- How many entries in a row must agree. -/
def runLength : Nat := 9

/--
A list holds the given number of consecutive true entries.  The second argument
counts the true entries directly before the list.
-/
def hasRun (wanted : Nat) : (before : Nat) → List Bool → Bool
  | before, [] => decide (wanted ≤ before)
  | before, flag :: rest =>
      decide (wanted ≤ before) ||
        hasRun wanted (if flag then before + 1 else 0) rest

/-- A ring holds nine consecutive true entries. -/
def ringHasRun (flags : List Bool) : Bool :=
  hasRun runLength 0 (flags ++ flags.take (runLength - 1))

/--
A test on the circle holds for two adjacent or opposite entries of the four in
the main directions, and for nine entries in a row.
-/
def surrounds (holds : Int × Int → Bool) : Bool :=
  let above := holds (0, -3)
  let below := holds (0, 3)
  let right := holds (3, 0)
  let left := holds (-3, 0)
  ((above && below) || (below && right) || (right && left) ||
      (left && above)) &&
    ringHasRun (circle.map holds)

/-- The brightness at an offset from a cell. -/
def brightnessAt (gray : GrayPicture) (x y : Nat) (offset : Int × Int) : Nat :=
  (gray.getD (x + offset.1).toNat (y + offset.2).toNat 0).toNat

/--
The cell is a corner: enough of its circle is brighter, or darker, than it by
more than the threshold.
-/
def isCorner (gray : GrayPicture) (x y threshold : Nat) : Bool :=
  let center := (gray.getD x y 0).toNat
  surrounds (fun offset =>
      decide (center + threshold < brightnessAt gray x y offset)) ||
    surrounds (fun offset =>
      decide (brightnessAt gray x y offset + threshold < center))

/--
The largest number from `low` to `high` that passes a test, found by halving
under the assumption that passing is inherited by smaller numbers.
-/
def largest (passes : Nat → Bool) (low high : Nat) : Nat :=
  if low < high then
    let middle := if high = low + 1 then high else (low + high) / 2
    if passes middle then largest passes middle high
    else largest passes low (middle - 1)
  else low
termination_by high - low
decreasing_by
  all_goals (split <;> omega)

/-- The threshold that makes a cell a corner at all. -/
def cornerThreshold : Nat := 20

/-- The corner at a cell, if there is one. -/
def at? (gray : GrayPicture) (point : Point) : Option Keypoint :=
  if isCorner gray point.x point.y cornerThreshold then
    some
      { point
        strength :=
          largest (isCorner gray point.x point.y) cornerThreshold 255 }
  else none

/-- All corners in row order.  The circle has to lie inside the picture. -/
def corners (gray : GrayPicture) : List Keypoint :=
  (List.range' 3 (gray.height - 6)).flatMap fun y =>
    (List.range' 3 (gray.width - 6)).filterMap fun x => at? gray { x, y }

/-! ## Selection -/

/-- How far the patch around a keypoint reaches to each side. -/
def patchRadius : Nat := 15

/-- The largest number of keypoints kept. -/
def keptAtMost : Nat := 500

/-- The patch around a corner lies inside the picture. -/
def Eligible (gray : GrayPicture) (keypoint : Keypoint) : Prop :=
  patchRadius < keypoint.point.x ∧ patchRadius < keypoint.point.y ∧
    keypoint.point.x + patchRadius < gray.width ∧
    keypoint.point.y + patchRadius < gray.height

instance (gray : GrayPicture) (keypoint : Keypoint) :
    Decidable (keypoint.Eligible gray) :=
  inferInstanceAs (Decidable (_ ∧ _ ∧ _ ∧ _))

/-- A keypoint comes no later than another one in row order. -/
def rowOrder (first second : Keypoint) : Bool :=
  decide (first.point.y < second.point.y ∨
    (first.point.y = second.point.y ∧ first.point.x ≤ second.point.x))

/--
A keypoint is at least as good as another one: stronger, or equally strong and
no later in row order.
-/
def strengthOrder (first second : Keypoint) : Bool :=
  decide (second.strength < first.strength) ||
    (decide (first.strength = second.strength) && rowOrder first second)

/-- The eligible corners of a picture. -/
def eligibleCorners (gray : GrayPicture) : List Keypoint :=
  (corners gray).filter fun keypoint => decide (keypoint.Eligible gray)

/-- The best eligible corners of a picture, in row order. -/
def kept (gray : GrayPicture) : List Keypoint :=
  (((eligibleCorners gray).mergeSort strengthOrder).take keptAtMost).mergeSort
    rowOrder

end Keypoint

end ScreenCompare
