import ScreenCompare.Direction
import ScreenCompare.LabelMap
import ScreenCompare.Rect

/-!
# Regions of a label map

A region is a connected set of cells that carry the same label above 1, where
cells that share only a corner are connected too.  Regions are collected in row
order of their first cells; collecting one wipes its labels.  A region of a
single cell is noise and is wiped without being reported.
-/

namespace ScreenCompare

/--
A connected set of equally labelled cells: its bounding rectangle and the number
of its cells.
-/
structure Region where
  bounds : Rect
  size : Nat
deriving DecidableEq, Repr

/-- The bounding lines and the number of some cells. -/
structure Extent where
  left : Nat
  top : Nat
  right : Nat
  bottom : Nat
  size : Nat

namespace Extent

/-- No cells yet, with the bounding lines at a cell still to come. -/
def around (point : Point) : Extent where
  left := point.x
  top := point.y
  right := point.x
  bottom := point.y
  size := 0

/-- One more cell. -/
def add (extent : Extent) (point : Point) : Extent where
  left := min extent.left point.x
  top := min extent.top point.y
  right := max extent.right point.x
  bottom := max extent.bottom point.y
  size := extent.size + 1

/-- The region with this extent. -/
def toRegion (extent : Extent) : Region where
  bounds :=
    { left := extent.left
      top := extent.top
      width := extent.right - extent.left + 1
      height := extent.bottom - extent.top + 1 }
  size := extent.size

end Extent

namespace LabelMap

/--
The neighbors of a cell, corners included, as far as they have coordinates.
-/
def around (point : Point) : List Point :=
  (Direction.clockwiseFrom Direction.west).filterMap point.neighbor?

/--
Wipe a cell that carries a label, and put it on the list of cells to visit.
-/
def capture (label : Int) (state : LabelMap × List Point) (point : Point) :
    LabelMap × List Point :=
  if state.1.get? point.x point.y = some label then
    (state.1.set point.x point.y 0, point :: state.2)
  else state

/--
Visit the cells of a list and all cells of the given label connected to them.
The cell captured last is visited first.  The order does not show: a cell is
captured once, whenever that is, and an extent depends on its cells alone.
-/
def drain (label : Int) :
    (fuel : Nat) → (pending : List Point) → LabelMap → Extent →
      LabelMap × Extent
  | 0, _, labels, extent => (labels, extent)
  | _, [], labels, extent => (labels, extent)
  | fuel + 1, point :: pending, labels, extent =>
      let captured := (around point).foldl (capture label) (labels, pending)
      drain label fuel captured.2 captured.1 (extent.add point)

/-- A label map with some regions taken out, and these regions. -/
structure Harvest where
  labels : LabelMap
  regions : Array Region

/--
Collect the region of a cell, if its label is above 1.  A region has no more
cells than the map.
-/
def collect (harvest : Harvest) (point : Point) : Harvest :=
  match harvest.labels.get? point.x point.y with
  | none => harvest
  | some label =>
      if label ≤ 1 then harvest
      else
        let cellCount := harvest.labels.cells.size
        let drained := drain label cellCount [point]
          (harvest.labels.set point.x point.y 0) (Extent.around point)
        { labels := drained.1
          regions :=
            if 1 < drained.2.size then
              harvest.regions.push drained.2.toRegion
            else harvest.regions }

/-- Collect all regions of a label map. -/
def harvest (labels : LabelMap) : Harvest :=
  labels.points.foldl collect { labels, regions := #[] }

/-- The regions of a label map in row order of their first cells. -/
def regions (labels : LabelMap) : List Region :=
  labels.harvest.regions.toList

end LabelMap

end ScreenCompare
