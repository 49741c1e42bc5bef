import ScreenCompare.Raster

/-!
# Label maps

A label map assigns a whole number to every cell of a picture.  Positive labels
name regions, 0 stands for cells not yet assigned, and `boundary` for cells
between regions.

Cells are addressed by their position in row order.  A column past the right
edge is not refused: its position lies in a following row, and only a position
past the last cell has no label.
-/

namespace ScreenCompare

/-- A raster of labels. -/
abbrev LabelMap := Raster Int

namespace LabelMap

/-- The label of cells between regions. -/
def boundary : Int := -1

/-- The label of cells that belong to no region yet. -/
def unknown : Int := 0

/-- A label map on which nothing is known. -/
def blank (width height : Nat) : LabelMap :=
  Raster.filled width height unknown

/-- Add a number to every label. -/
def raise (labels : LabelMap) (amount : Int) : LabelMap :=
  labels.map (· + amount)

/-- A label fits into 32 bits. -/
def IsWord (label : Int) : Prop :=
  -0x80000000 ≤ label ∧ label < 0x80000000

instance (label : Int) : Decidable (IsWord label) :=
  inferInstanceAs (Decidable (_ ∧ _))

/-- Add a number to every label, if all of them stay within 32 bits. -/
def raise? (labels : LabelMap) (amount : Int) : Option LabelMap :=
  let raised := labels.raise amount
  if raised.cells.all fun label => decide (IsWord label) then some raised
  else none

/-- Replace the label at a position of the stored order. -/
def assign? (labels : LabelMap) (x y : Nat) (label : Int) : Option LabelMap :=
  if labels.index x y < labels.cells.size then
    some (labels.setCell (labels.index x y) label)
  else none

/-- The label at a position of the stored order. -/
def label? (labels : LabelMap) (x y : Nat) : Option Int :=
  labels.cell? (labels.index x y)

end LabelMap

end ScreenCompare
