import Mathlib.Data.Set.Card
import Mathlib.Logic.Relation
import ScreenCompare.LabelMap.Region
import ScreenCompare.Proofs.Direction
import ScreenCompare.Proofs.Raster

/-!
# Components of a label map

Two cells are joined if they are equal or neighbors, corners included, and carry
the same label above 1.  The component of a cell is everything that chains of
joined cells connect with it.  Every component has one head, its first cell in
row order.

A region describes a set of cells if its rectangle is the smallest one around
them and its size is their number.
-/

namespace ScreenCompare

namespace LabelMap

/-- The cells around a cell are the other ones that touch it. -/
theorem mem_around {point other : Point} :
    other ∈ around point ↔ point ≠ other ∧ point.Touches other := by
  rw [around, List.mem_filterMap, ← Point.exists_neighbor?_iff]
  constructor
  · rintro ⟨direction, _, towards⟩
    exact ⟨direction, towards⟩
  · rintro ⟨direction, towards⟩
    exact ⟨direction, Direction.mem_clockwiseFrom .., towards⟩

/-- The cell carries a label above 1. -/
def IsForeground (labels : LabelMap) (point : Point) : Prop :=
  ∃ label, 1 < label ∧ labels.get? point.x point.y = some label

/-- Two cells touch and carry the same label above 1. -/
def Joined (labels : LabelMap) (first second : Point) : Prop :=
  first.Touches second ∧ ∃ label, 1 < label ∧
    labels.get? first.x first.y = some label ∧
    labels.get? second.x second.y = some label

/-- Everything that chains of joined cells connect with a cell. -/
def component (labels : LabelMap) (point : Point) : Set Point :=
  { other | Relation.ReflTransGen labels.Joined point other }

/-- The first cell of a component in row order. -/
def IsHead (labels : LabelMap) (point : Point) : Prop :=
  labels.IsForeground point ∧
    ∀ other ∈ labels.component point, ¬ other.Before point

variable {labels : LabelMap} {first second : Point}

theorem Joined.symm (joined : labels.Joined first second) :
    labels.Joined second first := by
  rcases joined with ⟨touches, label, above, atFirst, atSecond⟩
  exact ⟨touches.symm, label, above, atSecond, atFirst⟩

theorem self_mem_component (labels : LabelMap) (point : Point) :
    point ∈ labels.component point :=
  Relation.ReflTransGen.refl

theorem mem_component_symm (member : second ∈ labels.component first) :
    first ∈ labels.component second := by
  induction member with
  | refl => exact self_mem_component labels first
  | tail _ joined inductionHypothesis =>
      exact Relation.ReflTransGen.head joined.symm inductionHypothesis

theorem component_eq_of_mem (member : second ∈ labels.component first) :
    labels.component second = labels.component first := by
  ext other
  constructor
  · intro connected
    exact Relation.ReflTransGen.trans member connected
  · intro connected
    exact Relation.ReflTransGen.trans (mem_component_symm member) connected

/-- All cells of a component carry one label. -/
theorem get?_of_mem_component {label : Int}
    (found : labels.get? first.x first.y = some label)
    (member : second ∈ labels.component first) :
    labels.get? second.x second.y = some label := by
  induction member with
  | refl => exact found
  | tail _ joined inductionHypothesis =>
      rcases joined.2 with ⟨other, _, atSource, atTarget⟩
      rw [atTarget, ← atSource, inductionHypothesis]

theorem isForeground_of_mem (foreground : labels.IsForeground first)
    (member : second ∈ labels.component first) :
    labels.IsForeground second := by
  rcases foreground with ⟨label, above, found⟩
  exact ⟨label, above, get?_of_mem_component found member⟩

/-- Every component of cells with a label above 1 has exactly one head. -/
theorem existsUnique_head (foreground : labels.IsForeground first) :
    ∃! head, labels.IsHead head ∧ head ∈ labels.component first := by
  classical
  have rowOrder : (labels.points.filter
      fun other => other ∈ labels.component first).Pairwise Point.Before :=
    labels.pairwise_points.filter _
  have listed (other : Point) :
      other ∈ labels.points.filter (fun other =>
        other ∈ labels.component first) ↔ other ∈ labels.component first := by
    rw [List.mem_filter, decide_eq_true_iff, and_iff_right_iff_imp]
    intro member
    rcases isForeground_of_mem foreground member with ⟨_, _, found⟩
    exact Raster.mem_points.2 (Raster.contains_of_get? found)
  cases cells : labels.points.filter
      fun other => other ∈ labels.component first with
  | nil =>
      have member := (listed first).2 (self_mem_component labels first)
      rw [cells] at member
      cases member
  | cons head rest =>
      rw [cells] at rowOrder listed
      have headMember : head ∈ labels.component first :=
        (listed head).1 (List.mem_cons_self ..)
      have notBefore : ∀ other ∈ labels.component first,
          ¬ other.Before head := by
        intro other member
        rcases List.mem_cons.1 ((listed other).2 member) with rfl | later
        · exact Point.Before.irrefl other
        · exact ((List.pairwise_cons.1 rowOrder).1 other later).asymm
      refine ⟨head, ⟨⟨isForeground_of_mem foreground headMember, ?_⟩,
        headMember⟩, ?_⟩
      · rw [component_eq_of_mem headMember]
        exact notBefore
      · rintro other ⟨⟨_, otherFirst⟩, otherMember⟩
        rcases List.mem_cons.1 ((listed other).2 otherMember) with same | later
        · exact same
        · rw [component_eq_of_mem otherMember] at otherFirst
          exact absurd ((List.pairwise_cons.1 rowOrder).1 other later)
            (otherFirst head headMember)

end LabelMap

/-- The rectangle is the smallest one around some cells. -/
structure Rect.IsTight (area : Rect) (cells : Set Point) : Prop where
  contains : ∀ cell ∈ cells, area.Contains cell.x cell.y
  left : ∃ cell ∈ cells, (cell.x : Int) = area.left
  right : ∃ cell ∈ cells, (cell.x : Int) = area.right
  top : ∃ cell ∈ cells, (cell.y : Int) = area.top
  bottom : ∃ cell ∈ cells, (cell.y : Int) = area.bottom

/-- The region has the smallest rectangle around some cells and their number. -/
structure Region.Describes (region : Region) (cells : Set Point) : Prop where
  bounds : region.bounds.IsTight cells
  size : cells.encard = region.size

end ScreenCompare
