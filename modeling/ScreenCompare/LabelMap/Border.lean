import ScreenCompare.Color
import ScreenCompare.Direction

/-!
# Borders of the set cells of a mask

The set cells of a mask form components, and a component may have holes.  This
module finds the closed chains of set cells that border a component from outside
or a hole from inside, and which border encloses which.

The mask is scanned row by row.  A horizontal change between a clear and a set
cell that no earlier border has passed opens a new border, which is followed
around until it closes.  Each border leaves its number on the cells it passes:
negative where the cell to the right is the clear side of the border, so that
later changes there are known to be accounted for.  A component whose first cell
lies in the leftmost column has no change to open its outer border.
-/

namespace ScreenCompare

/-- Which side of a border is clear. -/
inductive BorderKind where
  /-- The border of a component towards its surroundings. -/
  | outer
  /-- The border of a component towards a hole in it. -/
  | hole
deriving DecidableEq, Repr

/--
A closed chain of neighboring set cells, with the position of the border that
directly encloses it, if any.
-/
structure Border where
  points : List Point
  kind : BorderKind
  parent : Option Nat
deriving Repr

namespace Border

/--
One cell passed while following a border.  `clearEast` says that the cell to the
right was found clear while looking for the next cell.
-/
structure Visit where
  point : Point
  clearEast : Bool
deriving Repr

/-! ## Following a border -/

/-- The first direction of a list in which a cell has a set neighbor. -/
def firstSet? (isSet : Point → Bool) (point : Point) :
    List Direction → Option (Direction × Point)
  | [] => none
  | direction :: rest =>
      match point.neighbor? direction with
      | some neighbor =>
          if isSet neighbor then some (direction, neighbor)
          else firstSet? isSet point rest
      | none => firstSet? isSet point rest

/-- East comes before a direction in a list of directions. -/
def eastBefore (direction : Direction) : List Direction → Bool
  | [] => false
  | head :: rest =>
      if head = direction then false
      else if head = Direction.east then true
      else eastBefore direction rest

/--
Follow a border that starts at `start` and whose chain closes from `last`.  The
walk stands on `point`, having come from the cell in direction `back`, and turns
counterclockwise until it finds the next set cell.
-/
def follow (isSet : Point → Bool) (start last : Point) :
    (fuel : Nat) → (point : Point) → (back : Direction) →
      (visits : Array Visit) → Array Visit
  | 0, _, _, visits => visits
  | fuel + 1, point, back, visits =>
      let order := Direction.counterclockwiseTo back
      match firstSet? isSet point order with
      | none => visits.push { point, clearEast := false }
      | some (direction, next) =>
          let visits :=
            visits.push { point, clearEast := eastBefore direction order }
          if next = start ∧ point = last then visits
          else follow isSet start last fuel next direction.opposite visits

/--
The visits of the border that starts at a set cell with a clear neighbor in
direction `clear`, none if the cell has no set neighbor at all.  A walk passes
each cell at most once in each direction, which bounds its length.
-/
def trace (mask : GrayPicture) (start : Point) (clear : Direction) :
    List Visit :=
  let isSet := fun point : Point => mask.getD point.x point.y 0 != 0
  match firstSet? isSet start clear.clockwiseFrom with
  | none => []
  | some (direction, last) =>
      (follow isSet start last (8 * mask.width * mask.height) start direction
        #[]).toList

/-! ## Scanning a mask -/

/--
The state of a scan.  `marks` holds 0 on clear cells, 1 on set cells no border
has passed, and otherwise the number of the last border that was recorded there.
`enclosing` is the number of the border met last in the current row, and 1 at
its start.
-/
structure Scan where
  marks : Raster Int
  enclosing : Int
  borders : Array Border

namespace Scan

/-- The scan before the first row. -/
def start (mask : GrayPicture) : Scan where
  marks := mask.map fun brightness => if brightness = 0 then 0 else 1
  enclosing := 1
  borders := #[]

/--
The number of the next border.  Numbers start at 2, since 0 and 1 mark cells
without a border.
-/
def nextNumber (scan : Scan) : Int :=
  scan.borders.size + 2

/--
The kind of border that a cell opens, if it opens one.  A set cell with a clear
left neighbor opens an outer border if no border has passed it; a cell with a
clear right neighbor opens a hole unless its mark is negative.
-/
def opening? (scan : Scan) (x y : Nat) : Option BorderKind :=
  let mark := scan.marks.getD x y 0
  if mark = 1 ∧ 0 < x ∧ scan.marks.getD (x - 1) y 0 = 0 then some .outer
  else if 0 < mark ∧ x + 1 < scan.marks.width ∧
      scan.marks.getD (x + 1) y 0 = 0 then some .hole
  else none

/--
The parent of a new border, from the border met last in its row: that border
itself if it is of the other kind, and otherwise its parent.
-/
def parentOf? (scan : Scan) (kind : BorderKind) (enclosing : Int) :
    Option Nat :=
  if enclosing ≤ 1 then none
  else
    let position := (enclosing - 2).toNat
    match scan.borders[position]? with
    | none => none
    | some border =>
        if border.kind = kind then border.parent else some position

/-- Leave a border's number on a cell it has passed. -/
def stamp (number : Int) (marks : Raster Int) (visit : Visit) : Raster Int :=
  let x := visit.point.x
  let y := visit.point.y
  if x + 1 = marks.width ∨ visit.clearEast then marks.set x y (-number)
  else if marks.getD x y 0 = 1 then marks.set x y number
  else marks

/-- The side on which a border's first cell has its clear neighbor. -/
def clearSide : BorderKind → Direction
  | .outer => Direction.west
  | .hole => Direction.east

/-- Follow the border that opens at a cell and record it. -/
def openBorder (mask : GrayPicture) (scan : Scan) (x y : Nat)
    (kind : BorderKind) : Scan :=
  let point : Point := { x, y }
  let mark := scan.marks.getD x y 0
  let enclosing :=
    if kind = .hole ∧ 1 < mark then mark else scan.enclosing
  let number := scan.nextNumber
  let visits := trace mask point (clearSide kind)
  let marks :=
    if visits.isEmpty then scan.marks.set x y (-number)
    else visits.foldl (stamp number) scan.marks
  let border : Border :=
    { points := if visits.isEmpty then [point] else visits.map Visit.point
      kind
      parent := scan.parentOf? kind enclosing }
  { marks, enclosing, borders := scan.borders.push border }

/-- Visit one cell of the scan. -/
def visitCell (mask : GrayPicture) (scan : Scan) (x y : Nat) : Scan :=
  if scan.marks.getD x y 0 = 0 then scan
  else
    let scan :=
      match scan.opening? x y with
      | some kind => scan.openBorder mask x y kind
      | none => scan
    let mark := scan.marks.getD x y 0
    if mark = 1 then scan else { scan with enclosing := mark.natAbs }

/-- Visit the cells of one row from left to right. -/
def visitRow (mask : GrayPicture) (scan : Scan) (y : Nat) : Scan :=
  (List.range mask.width).foldl (fun scan x => scan.visitCell mask x y)
    { scan with enclosing := 1 }

end Scan

/--
All borders of the set cells of a mask, in the order in which the scan opens
them.
-/
def all (mask : GrayPicture) : List Border :=
  ((List.range mask.height).foldl (Scan.visitRow mask)
    (Scan.start mask)).borders.toList

end Border

end ScreenCompare
