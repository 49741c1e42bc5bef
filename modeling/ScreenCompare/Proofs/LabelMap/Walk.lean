import Mathlib.Logic.Relation
import ScreenCompare.Proofs.LabelMap.Beside

/-!
# Walks from neighbor to neighbor

A walk goes from a cell to one of its four neighbors at a time, and the cells on
which it may tread are given.  The interior of a map is connected: within it a
walk leads from every cell to every other (`walksTo_of_mem_interior`).
-/

namespace ScreenCompare

namespace LabelMap

/-- Two of the given cells are beside each other. -/
def Adjoins (cells : Set Point) (first second : Point) : Prop :=
  first ∈ cells ∧ second ∈ cells ∧ second ∈ besides first

/-- A walk over the given cells leads from one cell to another. -/
def WalksTo (cells : Set Point) : Point → Point → Prop :=
  Relation.ReflTransGen (Adjoins cells)

variable {cells wider : Set Point} {first second : Point}

theorem WalksTo.mono (walk : WalksTo cells first second)
    (subset : cells ⊆ wider) : WalksTo wider first second :=
  Relation.ReflTransGen.mono
    (fun _ _ adjoins => ⟨subset adjoins.1, subset adjoins.2.1, adjoins.2.2⟩)
    _ _ walk

/-! ## The interior is connected -/

variable {labels : LabelMap}

theorem WalksTo.symm (inside : ∀ cell ∈ cells, cell ∈ labels.interior)
    (walk : WalksTo cells first second) : WalksTo cells second first := by
  induction walk with
  | refl => exact .refl
  | tail _ last inductionHypothesis =>
      rcases last with ⟨fromCell, toCell, beside⟩
      have fromBounds := mem_interior.1 (inside _ fromCell)
      have toBounds := mem_interior.1 (inside _ toCell)
      have back := (mem_besides_comm toBounds.1 toBounds.2.2.1 fromBounds.1
        fromBounds.2.2.1).1 beside
      exact .head ⟨toCell, fromCell, back⟩ inductionHypothesis

theorem walksTo_right {x y : Nat} (steps : Nat)
    (start : { x, y : Point } ∈ labels.interior)
    (target : { x := x + steps, y : Point } ∈ labels.interior) :
    WalksTo { cell | cell ∈ labels.interior } { x, y }
      { x := x + steps, y } := by
  induction steps with
  | zero => exact .refl
  | succ steps inductionHypothesis =>
      have previous : { x := x + steps, y : Point } ∈ labels.interior := by
        rw [mem_interior] at start target ⊢
        simp only at start target ⊢
        omega
      refine .tail (inductionHypothesis previous) ⟨previous, target, ?_⟩
      simp [besides, Nat.add_assoc]

theorem walksTo_down {x y : Nat} (steps : Nat)
    (start : { x, y : Point } ∈ labels.interior)
    (target : { x, y := y + steps : Point } ∈ labels.interior) :
    WalksTo { cell | cell ∈ labels.interior } { x, y }
      { x, y := y + steps } := by
  induction steps with
  | zero => exact .refl
  | succ steps inductionHypothesis =>
      have previous : { x, y := y + steps : Point } ∈ labels.interior := by
        rw [mem_interior] at start target ⊢
        simp only at start target ⊢
        omega
      refine .tail (inductionHypothesis previous) ⟨previous, target, ?_⟩
      simp [besides, Nat.add_assoc]

/--
A walk over the interior leads from every interior cell to every other: first
along the row, then along the column.
-/
theorem walksTo_of_mem_interior (start : first ∈ labels.interior)
    (target : second ∈ labels.interior) :
    WalksTo { cell | cell ∈ labels.interior } first second := by
  obtain ⟨x, y⟩ := first
  obtain ⟨targetX, targetY⟩ := second
  have corner : { x := targetX, y : Point } ∈ labels.interior := by
    rw [mem_interior] at start target ⊢
    exact ⟨target.1, target.2.1, start.2.2⟩
  have alongRow : WalksTo { cell | cell ∈ labels.interior } { x, y }
      { x := targetX, y } := by
    rcases Nat.le_total x targetX with right | left
    · obtain ⟨steps, rfl⟩ := Nat.exists_eq_add_of_le right
      exact walksTo_right steps start corner
    · obtain ⟨steps, rfl⟩ := Nat.exists_eq_add_of_le left
      exact (walksTo_right steps corner start).symm fun _ member => member
  have alongColumn : WalksTo { cell | cell ∈ labels.interior }
      { x := targetX, y } { x := targetX, y := targetY } := by
    rcases Nat.le_total y targetY with down | up
    · obtain ⟨steps, rfl⟩ := Nat.exists_eq_add_of_le down
      exact walksTo_down steps corner target
    · obtain ⟨steps, rfl⟩ := Nat.exists_eq_add_of_le up
      exact (walksTo_down steps target corner).symm fun _ member => member
  exact alongRow.trans alongColumn

end LabelMap

end ScreenCompare
