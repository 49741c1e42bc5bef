import ScreenCompare.Raster

/-!
# Rasters as functions of their cells

A raster is determined by its size and by what is read at each cell
(`ext_get?`).  The cells of a raster are listed in row order, in which one cell
comes before another if it lies in a higher row, or further left in the same row
(`pairwise_points`).  Writing a value elsewhere changes by one how often the
value occurs (`count_cells_set`).
-/

namespace ScreenCompare

namespace Point

/-- Row order: rows from the top, and columns from the left within a row. -/
def Before (first second : Point) : Prop :=
  first.y < second.y ∨ first.y = second.y ∧ first.x < second.x

instance (first second : Point) : Decidable (first.Before second) :=
  inferInstanceAs (Decidable (_ ∨ _))

theorem Before.irrefl (point : Point) : ¬ point.Before point := by
  rintro (above | ⟨_, left⟩)
  · exact Nat.lt_irrefl _ above
  · exact Nat.lt_irrefl _ left

theorem Before.asymm {first second : Point}
    (before : first.Before second) : ¬ second.Before first := by
  unfold Before at *
  omega

end Point

namespace Raster

variable {α : Type}

theorem SameSize.refl (raster : Raster α) : raster.SameSize raster :=
  ⟨rfl, rfl⟩

theorem SameSize.trans {β γ : Type}
    {first : Raster α} {second : Raster β} {third : Raster γ}
    (left : first.SameSize second) (right : second.SameSize third) :
    first.SameSize third :=
  ⟨left.1.trans right.1, left.2.trans right.2⟩

theorem SameSize.isEmpty_iff {β : Type} {first : Raster α} {second : Raster β}
    (same : first.SameSize second) : first.IsEmpty ↔ second.IsEmpty := by
  rw [IsEmpty, IsEmpty, same.1, same.2]

theorem SameSize.set (raster : Raster α) (x y : Nat) (value : α) :
    (raster.set x y value).SameSize raster :=
  ⟨width_set .., height_set ..⟩

theorem contains_of_get? {raster : Raster α} {x y : Nat} {value : α}
    (found : raster.get? x y = some value) : raster.Contains x y := by
  apply Classical.byContradiction
  intro outside
  rw [get?_eq_none_iff.2 outside] at found
  cases found

theorem get?_of_contains {raster : Raster α} {x y : Nat}
    (inside : raster.Contains x y) : ∃ value, raster.get? x y = some value := by
  cases found : raster.get? x y with
  | none => exact absurd inside (get?_eq_none_iff.1 found)
  | some value => exact ⟨value, rfl⟩

/--
A write at a cell, read at another cell of which only the position is known.
-/
theorem get?_set_point {raster : Raster α} {written read : Point} {value : α} :
    (raster.set written.x written.y value).get? read.x read.y =
      if read = written ∧ raster.Contains written.x written.y then some value
      else raster.get? read.x read.y := by
  obtain ⟨writtenX, writtenY⟩ := written
  obtain ⟨readX, readY⟩ := read
  simp only [get?_set, Point.mk.injEq, and_assoc]

/-- Inside both grids, cells are equal if they read the same with a stand-in. -/
theorem getD_eq_getD_iff {first second : Raster α} {x y otherX otherY : Nat}
    (inside : first.Contains x y) (otherInside : second.Contains otherX otherY)
    (outside : α) :
    first.getD x y outside = second.getD otherX otherY outside ↔
      first.get? x y = second.get? otherX otherY := by
  rcases get?_of_contains inside with ⟨value, found⟩
  rcases get?_of_contains otherInside with ⟨otherValue, otherFound⟩
  rw [getD_eq, getD_eq, found, otherFound, Option.getD_some, Option.getD_some,
    Option.some.injEq]

/-- Every position of the stored order belongs to a cell. -/
theorem cells_getElem?_eq_get? (raster : Raster α) {position : Nat}
    (bound : position < raster.width * raster.height) :
    raster.cells[position]? =
      raster.get? (position % raster.width) (position / raster.width) := by
  have positive : 0 < raster.width := by
    apply Nat.pos_of_ne_zero
    intro empty
    simp [empty] at bound
  have inside : position % raster.width < raster.width :=
    Nat.mod_lt position positive
  rw [get?, if_pos inside, index, Nat.div_add_mod']

/-- Rasters with the same size and the same cells are equal. -/
theorem ext_get? {first second : Raster α}
    (same : first.SameSize second)
    (cells : ∀ x y, first.get? x y = second.get? x y) : first = second := by
  have cellsEq : first.cells = second.cells := by
    apply Array.ext_getElem?
    intro position
    by_cases bound : position < first.width * first.height
    · have otherBound : position < second.width * second.height := by
        rw [← same.1, ← same.2]
        exact bound
      rw [cells_getElem?_eq_get? first bound,
        cells_getElem?_eq_get? second otherBound, cells, same.1]
    · have pastFirst : first.cells.size ≤ position := by
        rw [first.size_cells]
        exact Nat.le_of_not_lt bound
      have pastSecond : second.cells.size ≤ position := by
        rw [second.size_cells, ← same.1, ← same.2]
        exact Nat.le_of_not_lt bound
      rw [Array.getElem?_eq_none pastFirst, Array.getElem?_eq_none pastSecond]
  rcases same with ⟨widths, heights⟩
  cases first
  cases second
  simp_all

/-- Replacing one occurrence of a value by something else leaves one less. -/
theorem count_cells_set [BEq α] [LawfulBEq α] {raster : Raster α} {x y : Nat}
    {old new : α} (found : raster.get? x y = some old) (different : new ≠ old) :
    (raster.set x y new).cells.count old + 1 = raster.cells.count old := by
  have inside := contains_of_get? found
  have bound : raster.index x y < raster.cells.size := by
    rw [raster.size_cells]
    exact index_lt raster inside
  rw [get?, if_pos inside.1, Array.getElem?_eq_getElem bound] at found
  have here : raster.cells[raster.index x y] = old := Option.some.inj found
  have occurs : 0 < raster.cells.count old := by
    rw [Array.count_pos_iff, ← here]
    exact Array.getElem_mem bound
  have counted : (raster.set x y new).cells.count old =
      raster.cells.count old - 1 := by
    simp [set, inside.1, setCell, Array.setIfInBounds, bound, Array.count_set,
      here, different]
  omega

/-- The cells of a raster are listed in row order. -/
theorem pairwise_points (raster : Raster α) :
    raster.points.Pairwise Point.Before := by
  rw [points, List.pairwise_flatMap]
  constructor
  · intro y _
    rw [List.pairwise_map]
    exact List.pairwise_lt_range.imp fun left => Or.inr ⟨rfl, left⟩
  · apply List.pairwise_lt_range.imp
    intro upper lower above first firstMember second secondMember
    rcases List.mem_map.1 firstMember with ⟨_, _, rfl⟩
    rcases List.mem_map.1 secondMember with ⟨_, _, rfl⟩
    exact Or.inl above

end Raster

end ScreenCompare
