import Mathlib.Data.Set.Card
import ScreenCompare.Proofs.LabelMap.Drain
import ScreenCompare.Proofs.LabelMap.Extent

/-!
# Harvesting the regions of a label map

While the cells of a map are visited in row order, the map that is left and the
regions found so far are determined by the cells already seen
(`Harvest.Gathers`): whatever is connected with a seen cell has been wiped, all
else is as it was, and there is one region for each seen head whose component
has several cells.  A cell that still carries a label above 1 when its turn comes
is the head of its component, and the whole component is still there.
-/

namespace ScreenCompare

namespace LabelMap

/-- A fill that starts at a wiped cell visits the component the cell had. -/
theorem fillFrom_wiped {labels : LabelMap} {point : Point} {label : Int}
    (above : 1 < label) (found : labels.get? point.x point.y = some label) :
    fillFrom label (labels.set point.x point.y 0) [point] =
      labels.component point := by
  have inside := Raster.contains_of_get? found
  have wiped (other : Point) :
      (labels.set point.x point.y 0).get? other.x other.y = some label ↔
        other ≠ point ∧ labels.get? other.x other.y = some label := by
    rw [Raster.get?_set_point]
    by_cases here : other = point
    · rw [if_pos ⟨here, inside⟩, Option.some.injEq]
      constructor
      · intro zero
        omega
      · intro both
        exact absurd here both.1
    · rw [if_neg fun both => here both.1]
      exact (and_iff_right here).symm
  ext other
  constructor
  · rintro ⟨source, member, chain⟩
    obtain rfl := List.mem_singleton.1 member
    induction chain with
    | refl => exact self_mem_component labels source
    | tail _ spreads inductionHypothesis =>
        exact Relation.ReflTransGen.tail inductionHypothesis
          ⟨(mem_around.1 spreads.1).2, label, above,
            get?_of_mem_component found inductionHypothesis,
            ((wiped _).1 spreads.2).2⟩
  · intro connected
    induction connected with
    | refl => exact mem_fillFrom_of_mem (List.mem_singleton_self point)
    | @tail source target chain joined inductionHypothesis =>
        by_cases same : source = target
        · exact same ▸ inductionHypothesis
        · by_cases here : target = point
          · exact mem_fillFrom_of_mem (List.mem_singleton.2 here)
          · exact mem_fillFrom_of_spreads inductionHypothesis
              ⟨mem_around.2 ⟨same, joined.1⟩, (wiped target).2 ⟨here,
                get?_of_mem_component found
                  (Relation.ReflTransGen.tail chain joined)⟩⟩

theorem isReady_wiped {labels : LabelMap} {point : Point}
    (inside : labels.Contains point.x point.y) :
    IsReady (labels.set point.x point.y 0) [point] := by
  refine ⟨List.nodup_singleton point, ?_⟩
  intro other member
  obtain rfl := List.mem_singleton.1 member
  rw [Raster.get?_set_point, if_pos ⟨rfl, inside⟩]

/-- As many rounds as the map has cells suffice for one component. -/
theorem rounds_suffice {labels : LabelMap} {point : Point} {label : Int}
    (nonzero : label ≠ 0)
    (found : labels.get? point.x point.y = some label) :
    [point].length + (labels.set point.x point.y 0).cells.count label ≤
      labels.cells.size := by
  have counted := Raster.count_cells_set found nonzero.symm
  have bound : labels.cells.count label ≤ labels.cells.size :=
    Array.count_le_size
  rw [List.length_singleton]
  omega

/-- A fill that starts at a wiped cell drains the component the cell had. -/
theorem exists_drains_component {labels : LabelMap} {point : Point}
    {label : Int} (above : 1 < label)
    (found : labels.get? point.x point.y = some label) (extent : Extent) :
    ∃ visited,
      Drains label [point] (labels.set point.x point.y 0) extent
        (drain label labels.cells.size [point]
          (labels.set point.x point.y 0) extent) visited ∧
        ∀ other, other ∈ visited ↔ other ∈ labels.component point := by
  have nonzero : label ≠ 0 := by omega
  rcases exists_drains nonzero _ _ _ extent
      (isReady_wiped (Raster.contains_of_get? found))
      (rounds_suffice nonzero found) with ⟨visited, drains⟩
  refine ⟨visited, drains, ?_⟩
  intro other
  rw [drains.mem_iff, fillFrom_wiped above found]

theorem collect_of_background {harvest : Harvest} {point : Point}
    (background : ¬ harvest.labels.IsForeground point) :
    collect harvest point = harvest := by
  unfold collect
  split
  · rfl
  · next label found =>
      rw [if_pos]
      apply Int.not_lt.1
      intro above
      exact background ⟨label, above, found⟩

/--
Collecting the region of a cell wipes the cell's component and adds a region
that describes it, unless that has only one cell.
-/
theorem collect_of_foreground {harvest : Harvest} {point : Point}
    (foreground : harvest.labels.IsForeground point) :
    (collect harvest point).labels.SameSize harvest.labels ∧
      (∀ other ∈ harvest.labels.component point,
        (collect harvest point).labels.get? other.x other.y = some 0) ∧
      (∀ other, other ∉ harvest.labels.component point →
        (collect harvest point).labels.get? other.x other.y =
          harvest.labels.get? other.x other.y) ∧
      ∃ region : Region,
        region.Describes (harvest.labels.component point) ∧
          (collect harvest point).regions =
            if 1 < region.size then harvest.regions.push region
            else harvest.regions := by
  rcases foreground with ⟨label, above, found⟩
  rcases exists_drains_component above found (Extent.around point) with
    ⟨visited, drains, visitedIff⟩
  have collected : collect harvest point =
      { labels := (drain label harvest.labels.cells.size [point]
          (harvest.labels.set point.x point.y 0) (Extent.around point)).1
        regions :=
          if 1 < (visited.foldl Extent.add (Extent.around point)).size then
            harvest.regions.push
              (visited.foldl Extent.add (Extent.around point)).toRegion
          else harvest.regions } := by
    rw [← drains.extent, collect, found]
    exact if_neg (Int.not_le.2 above)
  rw [collected]
  refine ⟨drains.sameSize.trans (Raster.SameSize.set ..), ?_, ?_, ?_⟩
  · intro other member
    rw [drains.get?, if_pos ((visitedIff other).2 member)]
  · intro other apart
    have elsewhere : other ≠ point := by
      rintro rfl
      exact apart (self_mem_component harvest.labels other)
    rw [drains.get?, if_neg fun member => apart ((visitedIff other).1 member),
      Raster.get?_set_point, if_neg fun both => elsewhere both.1]
  · have member : point ∈ visited :=
      (visitedIff point).2 (self_mem_component harvest.labels point)
    have described := Extent.describes_foldl member drains.nodup
    have cells : { cell | cell ∈ visited } =
        harvest.labels.component point :=
      Set.ext visitedIff
    rw [cells] at described
    exact ⟨_, described, rfl⟩

/--
A component whose cells all still carry their labels is still a component of a
map that has lost labels elsewhere.
-/
theorem component_eq_of_agree {labels rest : LabelMap} {point : Point}
    (agree : ∀ other ∈ labels.component point,
      rest.get? other.x other.y = labels.get? other.x other.y)
    (lost : ∀ (other : Point) (label : Int), 1 < label →
      rest.get? other.x other.y = some label →
        labels.get? other.x other.y = some label) :
    rest.component point = labels.component point := by
  ext other
  constructor
  · intro connected
    induction connected with
    | refl => exact self_mem_component labels point
    | tail _ joined inductionHypothesis =>
        rcases joined with ⟨touches, label, above, atSource, atTarget⟩
        exact Relation.ReflTransGen.tail inductionHypothesis
          ⟨touches, label, above, lost _ label above atSource,
            lost _ label above atTarget⟩
  · intro connected
    induction connected with
    | refl => exact self_mem_component rest point
    | tail chain joined inductionHypothesis =>
        have target := agree _ (Relation.ReflTransGen.tail chain joined)
        have source := agree _ chain
        rcases joined with ⟨touches, label, above, atSource, atTarget⟩
        exact Relation.ReflTransGen.tail inductionHypothesis
          ⟨touches, label, above, source.trans atSource,
            target.trans atTarget⟩

/-- The cells of a list that are the heads of components with several cells. -/
noncomputable def headsAmong (labels : LabelMap) (cells : List Point) :
    List Point := by
  classical
  exact cells.filter fun point =>
    labels.IsHead point ∧ (labels.component point).Nontrivial

theorem mem_headsAmong {labels : LabelMap} {cells : List Point}
    {point : Point} :
    point ∈ labels.headsAmong cells ↔ point ∈ cells ∧ labels.IsHead point ∧
      (labels.component point).Nontrivial := by
  simp [headsAmong]

theorem headsAmong_append (labels : LabelMap) (first second : List Point) :
    labels.headsAmong (first ++ second) =
      labels.headsAmong first ++ labels.headsAmong second := by
  simp [headsAmong]

theorem headsAmong_singleton_of_not {labels : LabelMap} {point : Point}
    (other : ¬ (labels.IsHead point ∧ (labels.component point).Nontrivial)) :
    labels.headsAmong [point] = [] := by
  simp [headsAmong, other]

theorem headsAmong_singleton {labels : LabelMap} {point : Point}
    (head : labels.IsHead point)
    (several : (labels.component point).Nontrivial) :
    labels.headsAmong [point] = [point] := by
  simp [headsAmong, head, several]

/-- The state of a harvest once some cells have been seen. -/
structure Harvest.Gathers (labels : LabelMap) (seen : List Point)
    (harvest : Harvest) : Prop where
  sameSize : harvest.labels.SameSize labels
  wiped : ∀ point, labels.IsForeground point →
    (∃ other ∈ seen, point ∈ labels.component other) →
      harvest.labels.get? point.x point.y = some 0
  kept : ∀ point, ¬ (labels.IsForeground point ∧
      ∃ other ∈ seen, point ∈ labels.component other) →
    harvest.labels.get? point.x point.y = labels.get? point.x point.y
  regions : List.Forall₂
    (fun head region => region.Describes (labels.component head))
    (labels.headsAmong seen) harvest.regions.toList

namespace Harvest.Gathers

variable {labels : LabelMap} {seen : List Point} {harvest : Harvest}

theorem start (labels : LabelMap) :
    Harvest.Gathers labels [] { labels, regions := #[] } where
  sameSize := Raster.SameSize.refl labels
  wiped := by simp
  kept := by simp
  regions := by simp [headsAmong]

/--
A label above 1 that is still there has not been touched, and no seen cell is
connected with it.
-/
theorem untouched (gathers : Gathers labels seen harvest) {point : Point}
    {label : Int} (above : 1 < label)
    (found : harvest.labels.get? point.x point.y = some label) :
    labels.get? point.x point.y = some label ∧
      ∀ other ∈ seen, point ∉ labels.component other := by
  by_cases touched : labels.IsForeground point ∧
      ∃ other ∈ seen, point ∈ labels.component other
  · have zero := gathers.wiped point touched.1 touched.2
    rw [found, Option.some.injEq] at zero
    omega
  · have same := (gathers.kept point touched).symm.trans found
    refine ⟨same, ?_⟩
    intro other member connected
    exact touched ⟨⟨label, above, same⟩, other, member, connected⟩

/--
Passing a cell that has been wiped or never had a label above 1 changes nothing.
-/
theorem passBackground (gathers : Gathers labels seen harvest) {point : Point}
    (later : ∀ other ∈ seen, other.Before point)
    (background : ¬ harvest.labels.IsForeground point) :
    Gathers labels (seen ++ [point]) harvest := by
  have touched : labels.IsForeground point →
      ∃ other ∈ seen, point ∈ labels.component other := by
    intro foreground
    apply Classical.byContradiction
    intro untouched
    rcases foreground with ⟨label, above, found⟩
    have same := gathers.kept point fun both => untouched both.2
    exact background ⟨label, above, same.trans found⟩
  have seenBefore {other : Point} (foreground : labels.IsForeground other) :
      (∃ first ∈ seen ++ [point], other ∈ labels.component first) ↔
        ∃ first ∈ seen, other ∈ labels.component first := by
    constructor
    · rintro ⟨first, member, connected⟩
      rcases List.mem_append.1 member with member | member
      · exact ⟨first, member, connected⟩
      · obtain rfl := List.mem_singleton.1 member
        have firstForeground :=
          isForeground_of_mem foreground (mem_component_symm connected)
        rcases touched firstForeground with ⟨earlier, member, reaches⟩
        exact ⟨earlier, member, reaches.trans connected⟩
    · rintro ⟨first, member, connected⟩
      exact ⟨first, List.mem_append_left _ member, connected⟩
  constructor
  · exact gathers.sameSize
  · intro other foreground connected
    exact gathers.wiped other foreground ((seenBefore foreground).1 connected)
  · intro other apart
    apply gathers.kept
    rintro ⟨foreground, connected⟩
    exact apart ⟨foreground, (seenBefore foreground).2 connected⟩
  · have noHead :
        ¬ (labels.IsHead point ∧ (labels.component point).Nontrivial) := by
      rintro ⟨head, _⟩
      rcases touched head.1 with ⟨earlier, member, connected⟩
      exact head.2 earlier (mem_component_symm connected) (later earlier member)
    rw [headsAmong_append, headsAmong_singleton_of_not noHead, List.append_nil]
    exact gathers.regions

/--
A cell that still has a label above 1 when its turn comes is the head of its
component.
-/
theorem isHead (gathers : Gathers labels seen harvest) {point : Point}
    (earlier : ∀ other ∈ labels.component point,
      other.Before point → other ∈ seen)
    (foreground : harvest.labels.IsForeground point) :
    labels.IsHead point := by
  rcases foreground with ⟨label, above, found⟩
  rcases gathers.untouched above found with ⟨same, fresh⟩
  refine ⟨⟨label, above, same⟩, ?_⟩
  intro other connected before
  exact fresh other (earlier other connected before)
    (mem_component_symm connected)

/-- The component of a cell that still has a label above 1 is all there. -/
theorem component_eq (gathers : Gathers labels seen harvest) {point : Point}
    (foreground : harvest.labels.IsForeground point) :
    harvest.labels.component point = labels.component point := by
  rcases foreground with ⟨label, above, found⟩
  rcases gathers.untouched above found with ⟨_, fresh⟩
  apply component_eq_of_agree
  · intro other connected
    apply gathers.kept
    rintro ⟨_, first, member, reaches⟩
    exact fresh first member (reaches.trans (mem_component_symm connected))
  · intro other otherLabel otherAbove otherFound
    exact (gathers.untouched otherAbove otherFound).1

/-- Passing a cell that still has a label above 1 collects its component. -/
theorem passForeground (gathers : Gathers labels seen harvest) {point : Point}
    (earlier : ∀ other ∈ labels.component point,
      other.Before point → other ∈ seen)
    (foreground : harvest.labels.IsForeground point) :
    Gathers labels (seen ++ [point]) (collect harvest point) := by
  have head := gathers.isHead earlier foreground
  rcases collect_of_foreground foreground with
    ⟨sameSize, wiped, kept, region, described, regions⟩
  rw [gathers.component_eq foreground] at wiped kept described
  constructor
  · exact sameSize.trans gathers.sameSize
  · rintro other otherForeground ⟨first, member, connected⟩
    by_cases here : other ∈ labels.component point
    · exact wiped other here
    · rcases List.mem_append.1 member with member | member
      · rw [kept other here]
        exact gathers.wiped other otherForeground ⟨first, member, connected⟩
      · obtain rfl := List.mem_singleton.1 member
        exact absurd connected here
  · intro other apart
    have notHere : other ∉ labels.component point := by
      intro connected
      exact apart ⟨isForeground_of_mem head.1 connected, point,
        List.mem_append_right _ (List.mem_singleton_self point), connected⟩
    rw [kept other notHere]
    apply gathers.kept
    rintro ⟨otherForeground, first, member, connected⟩
    exact apart ⟨otherForeground, first, List.mem_append_left _ member,
      connected⟩
  · have several :
        1 < region.size ↔ (labels.component point).Nontrivial := by
      rw [← Set.one_lt_encard_iff_nontrivial, described.size]
      exact Nat.one_lt_cast.symm
    rw [regions, headsAmong_append]
    by_cases nontrivial : (labels.component point).Nontrivial
    · rw [headsAmong_singleton head nontrivial, if_pos (several.2 nontrivial),
        Array.toList_push]
      exact List.rel_append gathers.regions
        (List.Forall₂.cons described List.Forall₂.nil)
    · rw [headsAmong_singleton_of_not fun both => nontrivial both.2,
        if_neg fun size => nontrivial (several.1 size), List.append_nil]
      exact gathers.regions

/--
Passing the cells of a map in row order keeps the harvest in step with them.
-/
theorem foldl (gathers : Gathers labels seen harvest) (rest : List Point)
    (points : labels.points = seen ++ rest) :
    Gathers labels labels.points (rest.foldl collect harvest) := by
  induction rest generalizing seen harvest with
  | nil =>
      rw [points, List.append_nil]
      exact gathers
  | cons point rest inductionHypothesis =>
      have rowOrder := labels.pairwise_points
      rw [points, List.pairwise_append, List.pairwise_cons] at rowOrder
      have later : ∀ other ∈ seen, other.Before point := by
        intro other member
        exact rowOrder.2.2 other member point (List.mem_cons_self ..)
      have earlier : ∀ other ∈ labels.component point, other.Before point →
          labels.IsForeground point → other ∈ seen := by
        intro other connected before foreground
        rcases isForeground_of_mem foreground connected with ⟨_, _, found⟩
        have listed :=
          Raster.mem_points.2 (Raster.contains_of_get? found)
        rw [points, List.mem_append, List.mem_cons] at listed
        rcases listed with member | rfl | member
        · exact member
        · exact absurd before (Point.Before.irrefl other)
        · exact absurd before (rowOrder.2.1.1 other member).asymm
      have passed : Gathers labels (seen ++ [point]) (collect harvest point) := by
        by_cases foreground : harvest.labels.IsForeground point
        · apply gathers.passForeground _ foreground
          intro other connected before
          rcases foreground with ⟨label, above, found⟩
          exact earlier other connected before
            ⟨label, above, (gathers.untouched above found).1⟩
        · rw [collect_of_background foreground]
          exact gathers.passBackground later foreground
      exact inductionHypothesis passed (by
        rw [points, List.append_assoc, List.singleton_append])

end Harvest.Gathers

theorem harvest_gathers (labels : LabelMap) :
    Harvest.Gathers labels labels.points labels.harvest :=
  (Harvest.Gathers.start labels).foldl labels.points rfl

/-- Harvesting a map wipes every label above 1 and leaves all others alone. -/
theorem labels_harvest (labels : LabelMap) :
    labels.harvest.labels =
      labels.map fun label => if 1 < label then 0 else label := by
  have gathers := labels.harvest_gathers
  apply Raster.ext_get?
  · exact gathers.sameSize
  · intro x y
    rw [Raster.get?_map]
    by_cases foreground : labels.IsForeground { x, y }
    · have member : ({ x, y } : Point) ∈ labels.points := by
        rcases foreground with ⟨_, _, found⟩
        exact Raster.mem_points.2 (Raster.contains_of_get? found)
      rw [gathers.wiped { x, y } foreground
        ⟨_, member, self_mem_component labels _⟩]
      rcases foreground with ⟨label, above, found⟩
      rw [found, Option.map_some, if_pos above]
    · rw [gathers.kept { x, y } fun both => foreground both.1]
      cases found : labels.get? x y with
      | none => rfl
      | some label =>
          rw [Option.map_some, if_neg]
          intro above
          exact foreground ⟨label, above, found⟩

theorem mem_headsAmong_points {labels : LabelMap} {head : Point} :
    head ∈ labels.headsAmong labels.points ↔
      labels.IsHead head ∧ (labels.component head).Nontrivial := by
  rw [mem_headsAmong, and_iff_right_iff_imp]
  rintro ⟨⟨⟨_, _, found⟩, _⟩, _⟩
  exact Raster.mem_points.2 (Raster.contains_of_get? found)

theorem existsUnique_listed_head {labels : LabelMap} {point : Point}
    (foreground : labels.IsForeground point)
    (several : (labels.component point).Nontrivial) :
    ∃! head, head ∈ labels.headsAmong labels.points ∧
      head ∈ labels.component point := by
  rcases existsUnique_head foreground with ⟨head, ⟨isHead, member⟩, unique⟩
  have headSeveral : (labels.component head).Nontrivial := by
    rw [component_eq_of_mem member]
    exact several
  refine ⟨head, ⟨mem_headsAmong_points.2 ⟨isHead, headSeveral⟩, member⟩, ?_⟩
  rintro other ⟨otherListed, otherMember⟩
  exact unique other ⟨(mem_headsAmong_points.1 otherListed).1, otherMember⟩

/-- Two joined cells lie in a region. -/
theorem regions_ne_nil_of_joined {labels : LabelMap} {first second : Point}
    (joined : labels.Joined first second) (different : first ≠ second) :
    labels.regions ≠ [] := by
  have foreground : labels.IsForeground first := by
    obtain ⟨_, label, above, atFirst, _⟩ := joined
    exact ⟨label, above, atFirst⟩
  have several : (labels.component first).Nontrivial :=
    ⟨first, self_mem_component labels first, second,
      Relation.ReflTransGen.single joined, different⟩
  obtain ⟨head, ⟨listed, _⟩, _⟩ :=
    existsUnique_listed_head foreground several
  have sameLength := labels.harvest_gathers.regions.length_eq
  rw [regions, ← List.length_pos_iff, ← sameLength]
  exact List.length_pos_of_mem listed

/--
The regions of a label map are its components of at least two cells, one region
for each, in row order of their heads.  Harvesting them wipes all labels above 1,
those of single cells included, and leaves all others alone.
-/
theorem regions_are_components (labels : LabelMap) :
    ∃ heads : List Point,
      heads.Pairwise Point.Before ∧
        (∀ head, head ∈ heads ↔ labels.IsHead head ∧
          (labels.component head).Nontrivial) ∧
        (∀ point, labels.IsForeground point →
          (labels.component point).Nontrivial →
            ∃! head, head ∈ heads ∧ head ∈ labels.component point) ∧
        List.Forall₂
          (fun head region => region.Describes (labels.component head))
          heads labels.regions ∧
        labels.harvest.labels =
          labels.map fun label => if 1 < label then 0 else label := by
  refine ⟨labels.headsAmong labels.points, labels.pairwise_points.filter _,
    fun head => mem_headsAmong_points, ?_, labels.harvest_gathers.regions,
    labels.labels_harvest⟩
  intro point foreground several
  exact existsUnique_listed_head foreground several

end LabelMap

end ScreenCompare
