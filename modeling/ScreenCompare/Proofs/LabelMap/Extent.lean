import Mathlib.Data.Set.Card
import ScreenCompare.Proofs.LabelMap.Component

/-!
# The extent of a set of cells

Adding cells one by one keeps the bounding lines of an extent tight around the
cells added so far.  So the extent of the cells of a component, gathered in any
order without repetition, yields a region that describes the component.
-/

namespace ScreenCompare

namespace Extent

/--
The bounding lines enclose some cells, and each of them passes through one.
-/
structure IsTight (extent : Extent) (cells : Set Point) : Prop where
  encloses : ∀ cell ∈ cells,
    extent.left ≤ cell.x ∧ cell.x ≤ extent.right ∧
      extent.top ≤ cell.y ∧ cell.y ≤ extent.bottom
  left : ∃ cell ∈ cells, cell.x = extent.left
  right : ∃ cell ∈ cells, cell.x = extent.right
  top : ∃ cell ∈ cells, cell.y = extent.top
  bottom : ∃ cell ∈ cells, cell.y = extent.bottom

theorem isTight_around (point : Point) : (around point).IsTight {point} where
  encloses := by
    rintro cell rfl
    simp [around]
  left := ⟨point, rfl, rfl⟩
  right := ⟨point, rfl, rfl⟩
  top := ⟨point, rfl, rfl⟩
  bottom := ⟨point, rfl, rfl⟩

/--
A line that moves to the smaller or larger of two places still passes through a
cell.
-/
theorem exists_insert {cells : Set Point} {point : Point} {line moved : Nat}
    {coordinate : Point → Nat}
    (attained : ∃ cell ∈ cells, coordinate cell = line)
    (choice : moved = line ∨ moved = coordinate point) :
    ∃ cell ∈ insert point cells, coordinate cell = moved := by
  rcases choice with rfl | rfl
  · rcases attained with ⟨cell, member, equality⟩
    exact ⟨cell, Set.mem_insert_of_mem point member, equality⟩
  · exact ⟨point, Set.mem_insert point cells, rfl⟩

theorem IsTight.add {extent : Extent} {cells : Set Point}
    (tight : extent.IsTight cells) (point : Point) :
    (extent.add point).IsTight (insert point cells) where
  encloses := by
    intro cell member
    simp only [Extent.add]
    rcases member with rfl | member
    · omega
    · have bounds := tight.encloses cell member
      omega
  left := exists_insert tight.left (by simp only [Extent.add]; omega)
  right := exists_insert tight.right (by simp only [Extent.add]; omega)
  top := exists_insert tight.top (by simp only [Extent.add]; omega)
  bottom := exists_insert tight.bottom (by simp only [Extent.add]; omega)

theorem IsTight.foldl {extent : Extent} {cells : Set Point}
    (tight : extent.IsTight cells) (visited : List Point) :
    (visited.foldl Extent.add extent).IsTight (cells ∪ { cell | cell ∈ visited }) := by
  induction visited generalizing extent cells with
  | nil => simpa using tight
  | cons point rest inductionHypothesis =>
      have gathered : insert point cells ∪ { cell | cell ∈ rest } =
          cells ∪ { cell | cell ∈ point :: rest } := by
        ext cell
        simp only [Set.mem_union, Set.mem_insert_iff, Set.mem_ofPred_eq,
          List.mem_cons]
        tauto
      rw [List.foldl_cons, ← gathered]
      exact inductionHypothesis (tight.add point)

theorem size_foldl (extent : Extent) (visited : List Point) :
    (visited.foldl add extent).size = extent.size + visited.length := by
  induction visited generalizing extent with
  | nil => rfl
  | cons point rest inductionHypothesis =>
      rw [List.foldl_cons, inductionHypothesis, List.length_cons]
      simp only [add]
      omega

theorem IsTight.toRegion {extent : Extent} {cells : Set Point}
    (tight : extent.IsTight cells) : extent.toRegion.bounds.IsTight cells := by
  have columns : extent.left ≤ extent.right := by
    rcases tight.left with ⟨cell, member, _⟩
    have bounds := tight.encloses cell member
    omega
  have rows : extent.top ≤ extent.bottom := by
    rcases tight.top with ⟨cell, member, _⟩
    have bounds := tight.encloses cell member
    omega
  have right : extent.toRegion.bounds.right = extent.right := by
    simp only [Extent.toRegion, Rect.right]
    omega
  have bottom : extent.toRegion.bounds.bottom = extent.bottom := by
    simp only [Extent.toRegion, Rect.bottom]
    omega
  constructor
  · intro cell member
    have bounds := tight.encloses cell member
    rw [Rect.Contains, right, bottom]
    simp only [Extent.toRegion]
    omega
  · rcases tight.left with ⟨cell, member, equality⟩
    exact ⟨cell, member, congrArg Nat.cast equality⟩
  · rcases tight.right with ⟨cell, member, equality⟩
    exact ⟨cell, member, right ▸ congrArg Nat.cast equality⟩
  · rcases tight.top with ⟨cell, member, equality⟩
    exact ⟨cell, member, congrArg Nat.cast equality⟩
  · rcases tight.bottom with ⟨cell, member, equality⟩
    exact ⟨cell, member, bottom ▸ congrArg Nat.cast equality⟩

/--
Cells gathered without repetition, starting from the lines around one of them,
are described by the region they yield.
-/
theorem describes_foldl {visited : List Point} {point : Point}
    (member : point ∈ visited) (distinct : visited.Nodup) :
    (visited.foldl add (around point)).toRegion.Describes
      { cell | cell ∈ visited } where
  bounds := by
    have tight := (isTight_around point).foldl visited
    have inside : point ∈ { cell | cell ∈ visited } := member
    rw [Set.singleton_union, Set.insert_eq_of_mem inside] at tight
    exact tight.toRegion
  size := by
    have counted : (visited.foldl add (around point)).toRegion.size =
        visited.length := by
      rw [Extent.toRegion, size_foldl, around, Nat.zero_add]
    rw [counted, ← List.coe_toFinset, Set.encard_coe_eq_coe_finsetCard,
      List.toFinset_card_of_nodup distinct]

end Extent

end ScreenCompare
