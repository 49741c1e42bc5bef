import ScreenCompare.Direction

/-!
# Steps between neighboring cells

The offsets of the eight directions are exactly the steps by at most one column
and at most one row, other than standing still (`exists_offset_iff`).  So the
neighbors of a cell are the other cells that touch it.
-/

namespace ScreenCompare

namespace Direction

theorem offset_bounds (direction : Direction) :
    -1 ≤ direction.offset.1 ∧ direction.offset.1 ≤ 1 ∧
      -1 ≤ direction.offset.2 ∧ direction.offset.2 ≤ 1 ∧
      ¬ (direction.offset.1 = 0 ∧ direction.offset.2 = 0) := by
  revert direction
  decide

theorem exists_offset_iff {across down : Int} :
    (∃ direction : Direction, direction.offset = (across, down)) ↔
      -1 ≤ across ∧ across ≤ 1 ∧ -1 ≤ down ∧ down ≤ 1 ∧
        ¬ (across = 0 ∧ down = 0) := by
  constructor
  · rintro ⟨direction, equality⟩
    have bounds := direction.offset_bounds
    rwa [equality] at bounds
  · rintro ⟨left, right, above, below, moves⟩
    have columns : across = -1 ∨ across = 0 ∨ across = 1 := by omega
    have rows : down = -1 ∨ down = 0 ∨ down = 1 := by omega
    rcases columns with rfl | rfl | rfl <;> rcases rows with rfl | rfl | rfl
    · exact ⟨1, rfl⟩
    · exact ⟨0, rfl⟩
    · exact ⟨7, rfl⟩
    · exact ⟨2, rfl⟩
    · exact absurd ⟨rfl, rfl⟩ moves
    · exact ⟨6, rfl⟩
    · exact ⟨3, rfl⟩
    · exact ⟨4, rfl⟩
    · exact ⟨5, rfl⟩

theorem mem_clockwiseFrom (start direction : Direction) :
    direction ∈ clockwiseFrom start := by
  revert start direction
  decide

end Direction

namespace Point

theorem Touches.refl (point : Point) : point.Touches point := by
  unfold Touches
  omega

theorem Touches.symm {first second : Point}
    (touches : first.Touches second) : second.Touches first := by
  unfold Touches at *
  omega

theorem neighbor?_eq_some_iff {point other : Point} {direction : Direction} :
    point.neighbor? direction = some other ↔
      direction.offset = ((other.x : Int) - point.x, (other.y : Int) - point.y) := by
  obtain ⟨otherX, otherY⟩ := other
  cases step : direction.offset with
  | mk across down =>
      simp only [neighbor?, step, Option.ite_none_right_eq_some,
        Option.some.injEq, Point.mk.injEq, Prod.mk.injEq]
      omega

/--
A cell is the neighbor of another one in some direction if they are different
and touch.
-/
theorem exists_neighbor?_iff {point other : Point} :
    (∃ direction, point.neighbor? direction = some other) ↔
      point ≠ other ∧ point.Touches other := by
  obtain ⟨x, y⟩ := point
  obtain ⟨otherX, otherY⟩ := other
  simp only [neighbor?_eq_some_iff, Direction.exists_offset_iff, Touches, ne_eq,
    Point.mk.injEq]
  omega

end Point

end ScreenCompare
