/-!
# Rasters

A raster is a rectangular grid of cells, stored row by row.  Pictures, gray
pictures, masks and label maps are all rasters; they differ only in what a cell
holds.

Reading comes in two forms.  `get?` answers for a column and a row, and only for
cells of the grid.  `cell?` answers for a position in the stored order, so that
`cell? (index x y)` with a column past the right edge reads on in the next row.
The main statement is that a write is seen at its own cell and nowhere else
(`get?_set`).
-/

namespace ScreenCompare

/--
A cell position: `x` counts columns from the left and `y` rows from the top.
-/
structure Point where
  x : Nat
  y : Nat
deriving DecidableEq, Repr, Inhabited

/-- A grid of `width * height` cells in row order. -/
structure Raster (α : Type) where
  width : Nat
  height : Nat
  cells : Array α
  size_cells : cells.size = width * height

namespace Raster

variable {α β γ : Type}

instance [DecidableEq α] : DecidableEq (Raster α) := fun first second =>
  if same : first.width = second.width ∧ first.height = second.height ∧
      first.cells = second.cells then
    isTrue (by
      cases first
      cases second
      simp_all)
  else
    isFalse (by
      intro equality
      exact same (by simp [equality]))

/-- The position of a cell in the stored order. -/
@[inline] def index (raster : Raster α) (x y : Nat) : Nat :=
  y * raster.width + x

/-- The cell lies on the grid. -/
def Contains (raster : Raster α) (x y : Nat) : Prop :=
  x < raster.width ∧ y < raster.height

instance (raster : Raster α) (x y : Nat) : Decidable (raster.Contains x y) :=
  inferInstanceAs (Decidable (_ ∧ _))

/-- A raster without cells. -/
def IsEmpty (raster : Raster α) : Prop :=
  raster.width = 0 ∨ raster.height = 0

instance (raster : Raster α) : Decidable raster.IsEmpty :=
  inferInstanceAs (Decidable (_ ∨ _))

/-- Both rasters have the same width and the same height. -/
def SameSize (first : Raster α) (second : Raster β) : Prop :=
  first.width = second.width ∧ first.height = second.height

instance (first : Raster α) (second : Raster β) :
    Decidable (first.SameSize second) :=
  inferInstanceAs (Decidable (_ ∧ _))

/-- Read the cell at a position of the stored order. -/
@[inline] def cell? (raster : Raster α) (position : Nat) : Option α :=
  raster.cells[position]?

/-- Read the cell in column `x` and row `y`, if it lies on the grid. -/
@[inline] def get? (raster : Raster α) (x y : Nat) : Option α :=
  if x < raster.width then raster.cells[raster.index x y]? else none

/-- Read a cell, with a stand-in for cells outside the grid. -/
@[inline] def getD (raster : Raster α) (x y : Nat) (outside : α) : α :=
  if x < raster.width then raster.cells.getD (raster.index x y) outside
  else outside

/--
Write a position of the stored order; a position past the end is left alone.
-/
@[inline] def setCell (raster : Raster α) (position : Nat) (value : α) :
    Raster α where
  width := raster.width
  height := raster.height
  cells := raster.cells.setIfInBounds position value
  size_cells := by simpa using raster.size_cells

/-- Write one cell; a cell outside the grid is left alone. -/
@[inline] def set (raster : Raster α) (x y : Nat) (value : α) : Raster α :=
  if x < raster.width then raster.setCell (raster.index x y) value else raster

/-- Build a raster from the value of each cell. -/
def ofFn (width height : Nat) (value : Nat → Nat → α) : Raster α where
  width := width
  height := height
  cells := Array.ofFn fun position : Fin (width * height) =>
    value (position.val % width) (position.val / width)
  size_cells := by simp

/-- A raster with the same value everywhere. -/
def filled (width height : Nat) (value : α) : Raster α where
  width := width
  height := height
  cells := Array.replicate (width * height) value
  size_cells := by simp

/-- Change every cell on its own. -/
def map (change : α → β) (raster : Raster α) : Raster β where
  width := raster.width
  height := raster.height
  cells := raster.cells.map change
  size_cells := by simpa using raster.size_cells

/--
Cut out the cells of a rectangle; cells outside the grid read as `outside`.
-/
def crop (raster : Raster α) (left top width height : Nat) (outside : α) :
    Raster α :=
  ofFn width height fun x y => raster.getD (left + x) (top + y) outside

/--
The cells of a row-major array, if there are exactly as many as the grid needs.
-/
def ofArray? (width height : Nat) (cells : Array α) : Option (Raster α) :=
  if size_cells : cells.size = width * height then
    some { width, height, cells, size_cells }
  else
    none

/-- All cell positions in row order. -/
def points (raster : Raster α) : List Point :=
  (List.range raster.height).flatMap fun y =>
    (List.range raster.width).map fun x => { x, y }

/-! ## Reading and writing -/

theorem index_lt (raster : Raster α) {x y : Nat}
    (inside : raster.Contains x y) :
    raster.index x y < raster.width * raster.height := by
  rcases inside with ⟨columnInside, rowInside⟩
  calc
    y * raster.width + x < y * raster.width + raster.width := by omega
    _ = (y + 1) * raster.width := by rw [Nat.succ_mul]
    _ ≤ raster.height * raster.width :=
      Nat.mul_le_mul_right raster.width rowInside
    _ = raster.width * raster.height := Nat.mul_comm ..

theorem le_index (raster : Raster α) {x y : Nat}
    (below : raster.height ≤ y) :
    raster.width * raster.height ≤ raster.index x y := by
  calc
    raster.width * raster.height = raster.height * raster.width :=
      Nat.mul_comm ..
    _ ≤ y * raster.width := Nat.mul_le_mul_right raster.width below
    _ ≤ raster.index x y := Nat.le_add_right ..

/--
Two cells of the grid at the same position of the stored order are one cell.
-/
theorem index_inj {raster : Raster α} {x y otherX otherY : Nat}
    (inside : x < raster.width) (otherInside : otherX < raster.width)
    (same : raster.index x y = raster.index otherX otherY) :
    x = otherX ∧ y = otherY := by
  unfold index at same
  have columns : x = otherX := by
    have remainders := congrArg (· % raster.width) same
    simpa [Nat.mul_add_mod', Nat.mod_eq_of_lt inside,
      Nat.mod_eq_of_lt otherInside] using remainders
  subst columns
  have products : y * raster.width = otherY * raster.width := by omega
  exact ⟨rfl, Nat.eq_of_mul_eq_mul_right (by omega) products⟩

theorem get?_eq_none_iff {raster : Raster α} {x y : Nat} :
    raster.get? x y = none ↔ ¬ raster.Contains x y := by
  by_cases columnInside : x < raster.width
  · by_cases rowInside : y < raster.height
    · have bound := index_lt raster ⟨columnInside, rowInside⟩
      simp only [get?, columnInside, if_true, Contains, rowInside, true_and,
        not_true, iff_false]
      rw [Array.getElem?_eq_none_iff, raster.size_cells]
      omega
    · have bound := le_index raster (x := x) (y := y) (by omega)
      simp only [get?, columnInside, if_true, Contains, rowInside, and_false,
        not_false_eq_true, iff_true]
      rw [Array.getElem?_eq_none_iff, raster.size_cells]
      exact bound
  · simp [get?, Contains, columnInside]

theorem getD_eq (raster : Raster α) (x y : Nat) (outside : α) :
    raster.getD x y outside = (raster.get? x y).getD outside := by
  unfold getD get?
  split <;> simp [Array.getD_eq_getD_getElem?]

@[simp]
theorem width_set (raster : Raster α) (x y : Nat) (value : α) :
    (raster.set x y value).width = raster.width := by
  unfold set
  split <;> rfl

@[simp]
theorem height_set (raster : Raster α) (x y : Nat) (value : α) :
    (raster.set x y value).height = raster.height := by
  unfold set
  split <;> rfl

/-- A write is seen at its own cell, and every other cell keeps its value. -/
theorem get?_set {raster : Raster α} {x y otherX otherY : Nat} {value : α} :
    (raster.set x y value).get? otherX otherY =
      if otherX = x ∧ otherY = y ∧ raster.Contains x y then some value
      else raster.get? otherX otherY := by
  by_cases columnInside : x < raster.width
  case neg =>
    simp [set, columnInside, Contains]
  case pos =>
    by_cases otherInside : otherX < raster.width
    case neg =>
      have different : ¬ otherX = x := by
        intro equality
        exact otherInside (equality ▸ columnInside)
      simp [set, setCell, get?, otherInside, different, columnInside]
    case pos =>
      by_cases here : otherX = x ∧ otherY = y
      · rcases here with ⟨rfl, rfl⟩
        by_cases rowInside : otherY < raster.height
        · have bound := index_lt raster ⟨columnInside, rowInside⟩
          rw [← raster.size_cells] at bound
          simp only [index] at bound
          simp [set, setCell, get?, columnInside, Contains, rowInside, index,
            bound]
        · have outside : ¬ raster.Contains otherX otherY := by
            simp [Contains, rowInside]
          have bound := le_index raster (x := otherX)
            (y := otherY) (by omega)
          rw [← raster.size_cells] at bound
          have unchanged :
              raster.cells.setIfInBounds (raster.index otherX otherY) value =
                raster.cells := by
            simp [Array.setIfInBounds, Nat.not_lt.2 bound]
          simp [set, setCell, columnInside, outside, unchanged]
      · have different :
            raster.index x y ≠ raster.index otherX otherY := by
          intro same
          have := index_inj columnInside otherInside same
          omega
        have apart :
            ¬ (otherX = x ∧ otherY = y ∧ raster.Contains x y) := by
          intro both
          exact here ⟨both.1, both.2.1⟩
        simp only [apart, if_false]
        simp only [set, columnInside, if_true, setCell, get?, otherInside,
          index] at different ⊢
        exact Array.getElem?_setIfInBounds_ne different

@[simp]
theorem width_ofFn (width height : Nat) (value : Nat → Nat → α) :
    (ofFn width height value).width = width := rfl

@[simp]
theorem height_ofFn (width height : Nat) (value : Nat → Nat → α) :
    (ofFn width height value).height = height := rfl

/-- A raster built from its values has them. -/
theorem get?_ofFn {width height x y : Nat} {value : Nat → Nat → α} :
    (ofFn width height value).get? x y =
      if x < width ∧ y < height then some (value x y) else none := by
  by_cases columnInside : x < width
  case neg =>
    simp [get?, columnInside]
  case pos =>
    by_cases rowInside : y < height
    · have bound := index_lt (ofFn width height value)
        (x := x) (y := y) ⟨columnInside, rowInside⟩
      have positive : 0 < width := by omega
      have column : (y * width + x) % width = x := by
        rw [Nat.mul_add_mod', Nat.mod_eq_of_lt columnInside]
      have row : (y * width + x) / width = y := by
        rw [Nat.mul_comm, Nat.mul_add_div positive,
          Nat.div_eq_of_lt columnInside, Nat.add_zero]
      simp only [index, ofFn] at bound
      simp [get?, ofFn, columnInside, rowInside, index, bound, column, row]
    · have outside : ¬ (ofFn width height value).Contains x y := by
        simp [Contains, rowInside]
      rw [get?_eq_none_iff.2 outside]
      simp [rowInside]

/-- Changing every cell changes what is read from it. -/
theorem get?_map {raster : Raster α} {change : α → β} {x y : Nat} :
    (raster.map change).get? x y = (raster.get? x y).map change := by
  by_cases inside : x < raster.width
  · simp [get?, map, index, inside]
  · simp [get?, map, inside]

theorem get?_filled {width height x y : Nat} {value : α} :
    (filled width height value).get? x y =
      if x < width ∧ y < height then some value else none := by
  by_cases inside : (filled width height value).Contains x y
  · have bound := index_lt (filled width height value) inside
    rcases inside with ⟨columnInside, rowInside⟩
    simp only [filled] at columnInside rowInside
    simp only [index, filled] at bound
    simp [get?, filled, index, columnInside, rowInside, bound]
  · rw [get?_eq_none_iff.2 inside]
    have outside : ¬ (x < width ∧ y < height) := inside
    simp [outside]

/--
A cell of a crop is the cell as far from the corner of the rectangle, or the
stand-in if that lies outside the grid.
-/
theorem get?_crop {raster : Raster α}
    {left top width height x y : Nat} {outside : α} :
    (raster.crop left top width height outside).get? x y =
      if x < width ∧ y < height then
        some ((raster.get? (left + x) (top + y)).getD outside)
      else none := by
  simp [crop, get?_ofFn, getD_eq]

/-- The positions of a raster are those of its cells. -/
theorem mem_points {raster : Raster α} {point : Point} :
    point ∈ raster.points ↔ raster.Contains point.x point.y := by
  obtain ⟨x, y⟩ := point
  simp only [points, List.mem_flatMap, List.mem_map, List.mem_range,
    Point.mk.injEq, Contains]
  constructor
  · rintro ⟨row, rowInside, column, columnInside, rfl, rfl⟩
    exact ⟨columnInside, rowInside⟩
  · rintro ⟨columnInside, rowInside⟩
    exact ⟨y, rowInside, x, columnInside, rfl, rfl⟩

end Raster

end ScreenCompare
