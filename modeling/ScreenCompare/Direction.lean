import ScreenCompare.Raster

/-!
# Directions between neighboring cells

The eight neighbors of a cell form a ring that starts in the west and runs
through the north, that is clockwise on a screen.  A direction is its position
in that ring, so turning is addition modulo eight and the opposite direction is
four steps away.
-/

namespace ScreenCompare

/--
One of the eight directions: west, northwest, north, northeast, east, southeast,
south, southwest.
-/
abbrev Direction := Fin 8

namespace Direction

/-- Towards the previous column. -/
def west : Direction := 0

/-- Towards the next column. -/
def east : Direction := 4

/-- The direction back. -/
def opposite (direction : Direction) : Direction :=
  direction + 4

/-- The column and row offset of a step in a direction. -/
def offset : Direction → Int × Int
  | 0 => (-1, 0)
  | 1 => (-1, -1)
  | 2 => (0, -1)
  | 3 => (1, -1)
  | 4 => (1, 0)
  | 5 => (1, 1)
  | 6 => (0, 1)
  | 7 => (-1, 1)

/-- The eight directions clockwise from a given one. -/
def clockwiseFrom (start : Direction) : List Direction :=
  [start, start + 1, start + 2, start + 3, start + 4, start + 5, start + 6,
    start + 7]

/-- The eight directions counterclockwise, ending with a given one. -/
def counterclockwiseTo (last : Direction) : List Direction :=
  [last + 7, last + 6, last + 5, last + 4, last + 3, last + 2, last + 1, last]

end Direction

namespace Point

/--
The neighbor of a cell in a direction, if its column and row are not negative.
-/
def neighbor? (point : Point) (direction : Direction) : Option Point :=
  let (acrossBy, downBy) := direction.offset
  let x := (point.x : Int) + acrossBy
  let y := (point.y : Int) + downBy
  if 0 ≤ x ∧ 0 ≤ y then some { x := x.toNat, y := y.toNat } else none

/-- Two cells are equal or neighbors. -/
def Touches (first second : Point) : Prop :=
  first.x ≤ second.x + 1 ∧ second.x ≤ first.x + 1 ∧
    first.y ≤ second.y + 1 ∧ second.y ≤ first.y + 1

instance (first second : Point) : Decidable (first.Touches second) :=
  inferInstanceAs (Decidable (_ ∧ _ ∧ _ ∧ _))

end Point

end ScreenCompare
