import Mathlib.Dynamics.PeriodicPts.Lemmas
import ScreenCompare.Proofs.LabelMap.Border
import ScreenCompare.Proofs.LabelMap.EvenOdd

/-!
# Borders are closed chains

A walk along a border stands on a set cell and remembers the direction it came
from, in which there is a set cell too (`Stand`).  Turning counterclockwise from
there, it goes on to the first set cell.  The way back is determined: between the
direction it goes on in and the one it came from it passes clear cells only, so
two stands with one successor are equal (`next_injective`).  There are finitely
many stands, hence the walk comes back to where it started, and the bound on the
length of a walk is never reached (`exists_walk_of_trace`).

So consecutive cells of a border touch, and so do the last and the first.  Filling
a border, or any other closed chain, follows the even-odd rule
(`paintFilled_follows_even_odd`).
-/

namespace ScreenCompare

namespace Direction

theorem opposite_opposite (direction : Direction) :
    direction.opposite.opposite = direction := by
  revert direction
  decide

theorem offset_opposite (direction : Direction) :
    direction.opposite.offset = (-direction.offset.1, -direction.offset.2) := by
  revert direction
  decide

theorem offset_injective : Function.Injective offset := by
  decide

/--
The directions passed when turning counterclockwise from one direction to
another.
-/
def passed (back direction : Direction) : List Direction :=
  (counterclockwiseTo back).takeWhile fun other => other ≠ direction

/--
Two directions are equal if neither is passed when turning from the other one to
a common third.
-/
theorem eq_of_notMem_passed {first second direction : Direction} :
    second ∉ passed first direction → first ∉ passed second direction →
      first = second := by
  revert first second direction
  decide

theorem mem_counterclockwiseTo (last direction : Direction) :
    direction ∈ counterclockwiseTo last := by
  revert last direction
  decide

end Direction

theorem Point.neighbor?_opposite {point next : Point} {direction : Direction}
    (towards : point.neighbor? direction = some next) :
    next.neighbor? direction.opposite = some point := by
  rw [neighbor?_eq_some_iff] at towards ⊢
  rw [Direction.offset_opposite, towards, Prod.mk.injEq]
  constructor <;> dsimp only <;> omega

theorem Point.neighbor?_inj {point next : Point}
    {direction other : Direction}
    (towards : point.neighbor? direction = some next)
    (otherTowards : point.neighbor? other = some next) : direction = other := by
  rw [neighbor?_eq_some_iff] at towards otherTowards
  exact Direction.offset_injective (towards.trans otherTowards.symm)

namespace Border

variable {isSet : Point → Bool}

/-- There is a set cell in a direction. -/
def SetTowards (isSet : Point → Bool) (point : Point)
    (direction : Direction) : Prop :=
  ∃ neighbor, point.neighbor? direction = some neighbor ∧ isSet neighbor = true

/--
The search stops at its first direction, or goes on since that one leads to no set
cell.
-/
theorem firstSet?_cons (isSet : Point → Bool) (point : Point)
    (head : Direction) (rest : List Direction) :
    (∃ next, point.neighbor? head = some next ∧ isSet next = true ∧
        firstSet? isSet point (head :: rest) = some (head, next)) ∨
      ¬ SetTowards isSet point head ∧
        firstSet? isSet point (head :: rest) = firstSet? isSet point rest := by
  rw [firstSet?]
  cases atHead : point.neighbor? head with
  | none =>
      refine .inr ⟨?_, rfl⟩
      rintro ⟨neighbor, here, _⟩
      rw [atHead] at here
      cases here
  | some next =>
      dsimp only
      split
      · next set => exact .inl ⟨next, rfl, set, rfl⟩
      · next clear =>
          refine .inr ⟨?_, rfl⟩
          rintro ⟨neighbor, here, set⟩
          rw [atHead, Option.some.injEq] at here
          exact clear (here ▸ set)

theorem exists_firstSet? {point : Point} {directions : List Direction}
    {direction : Direction} (member : direction ∈ directions)
    (towards : SetTowards isSet point direction) :
    ∃ found, firstSet? isSet point directions = some found := by
  induction directions with
  | nil => cases member
  | cons head rest inductionHypothesis =>
      rcases firstSet?_cons isSet point head rest with
        ⟨next, _, _, stops⟩ | ⟨clear, goesOn⟩
      · exact ⟨_, stops⟩
      · rw [goesOn]
        rcases List.mem_cons.1 member with rfl | later
        · exact absurd towards clear
        · exact inductionHypothesis later

/--
The first set neighbor lies in the direction found, and before that direction
there are clear cells only.
-/
theorem of_firstSet? {point next : Point} {directions : List Direction}
    {direction : Direction}
    (found : firstSet? isSet point directions = some (direction, next)) :
    point.neighbor? direction = some next ∧ isSet next = true ∧
      ∀ other ∈ directions.takeWhile fun other => other ≠ direction,
        ¬ SetTowards isSet point other := by
  induction directions with
  | nil => cases found
  | cons head rest inductionHypothesis =>
      rcases firstSet?_cons isSet point head rest with
        ⟨atHead, towards, set, stops⟩ | ⟨clear, goesOn⟩
      · rw [stops, Option.some.injEq, Prod.mk.injEq] at found
        obtain ⟨rfl, rfl⟩ := found
        exact ⟨towards, set, by simp⟩
      · rw [goesOn] at found
        obtain ⟨towards, set, clearBefore⟩ := inductionHypothesis found
        refine ⟨towards, set, ?_⟩
        intro other member
        rw [List.takeWhile_cons] at member
        split at member
        · rcases List.mem_cons.1 member with rfl | member
          · exact clear
          · exact clearBefore other member
        · cases member

/-! ## Stands of a walk -/

/--
Where a walk stands: on a set cell, with a set cell in the direction it came from.
-/
@[ext]
structure Stand (isSet : Point → Bool) where
  point : Point
  back : Direction
  isSet_point : isSet point = true
  setTowards_back : SetTowards isSet point back

namespace Stand

theorem exists_next (stand : Stand isSet) :
    ∃ next : Stand isSet,
      firstSet? isSet stand.point (Direction.counterclockwiseTo stand.back) =
        some (next.back.opposite, next.point) := by
  obtain ⟨⟨direction, point⟩, found⟩ := exists_firstSet?
    (Direction.mem_counterclockwiseTo stand.back stand.back)
    stand.setTowards_back
  obtain ⟨towards, set, _⟩ := of_firstSet? found
  refine ⟨⟨point, direction.opposite, set, stand.point,
    Point.neighbor?_opposite towards, stand.isSet_point⟩, ?_⟩
  rw [found, Direction.opposite_opposite]

/-- Where a walk stands after one more step. -/
noncomputable def next (stand : Stand isSet) : Stand isSet :=
  stand.exists_next.choose

theorem firstSet?_eq (stand : Stand isSet) :
    firstSet? isSet stand.point (Direction.counterclockwiseTo stand.back) =
      some (stand.next.back.opposite, stand.next.point) :=
  stand.exists_next.choose_spec

theorem neighbor?_next (stand : Stand isSet) :
    stand.next.point.neighbor? stand.next.back = some stand.point := by
  have towards := Point.neighbor?_opposite (of_firstSet? stand.firstSet?_eq).1
  rwa [Direction.opposite_opposite] at towards

theorem touches_next (stand : Stand isSet) :
    stand.point.Touches stand.next.point :=
  (touches_of_firstSet? stand.firstSet?_eq).1

/--
A stand is determined by the next one: it is the cell the walk came from, and
the direction further back is the first set one when turning the other way.
-/
theorem next_injective :
    Function.Injective (next : Stand isSet → Stand isSet) := by
  intro first second same
  have points : first.point = second.point := by
    have towards := first.neighbor?_next
    rw [same, second.neighbor?_next, Option.some.injEq] at towards
    exact towards.symm
  have clearAfterFirst := (of_firstSet? first.firstSet?_eq).2.2
  have clearAfterSecond := (of_firstSet? second.firstSet?_eq).2.2
  rw [same] at clearAfterFirst
  apply Stand.ext points
  apply @Direction.eq_of_notMem_passed _ _ second.next.back.opposite
  · intro member
    exact clearAfterFirst _ member (points ▸ second.setTowards_back)
  · intro member
    exact clearAfterSecond _ member (points ▸ first.setTowards_back)

section Bounded

variable {width height : Nat}
  (bounded : ∀ point, isSet point = true → point.x < width ∧ point.y < height)

include bounded

/-- In a grid there are at most eight stands for each cell. -/
theorem exists_fintype :
    ∃ stands : Fintype (Stand isSet),
      @Fintype.card (Stand isSet) stands ≤ 8 * width * height := by
  let place (stand : Stand isSet) : Fin width × Fin height × Direction :=
    (⟨stand.point.x, (bounded _ stand.isSet_point).1⟩,
      ⟨stand.point.y, (bounded _ stand.isSet_point).2⟩, stand.back)
  have injective : Function.Injective place := by
    rintro ⟨⟨x, y⟩, back, _, _⟩ ⟨⟨otherX, otherY⟩, otherBack, _, _⟩ same
    simp only [place, Prod.mk.injEq, Fin.mk.injEq] at same
    obtain ⟨rfl, rfl, rfl⟩ := same
    rfl
  let stands := Fintype.ofInjective place injective
  refine ⟨stands, (Fintype.card_le_of_injective place injective).trans_eq ?_⟩
  simp only [Fintype.card_prod, Fintype.card_fin]
  ring

/-- A walk in a grid comes back to where it started. -/
theorem exists_return (stand : Stand isSet) :
    ∃ steps, steps < 8 * width * height ∧ next^[steps + 1] stand = stand ∧
      ∀ fewer < steps, next^[fewer + 1] stand ≠ stand := by
  obtain ⟨stands, atMost⟩ := exists_fintype bounded
  have positive : 0 < Function.minimalPeriod next stand :=
    Function.minimalPeriod_pos_of_mem_periodicPts
      (next_injective.mem_periodicPts stand)
  have bound : Function.minimalPeriod next stand ≤ 8 * width * height :=
    Function.minimalPeriod_le_card.trans atMost
  refine ⟨Function.minimalPeriod next stand - 1, by omega, ?_, ?_⟩
  · rw [Nat.sub_add_cancel positive]
    exact Function.isPeriodicPt_minimalPeriod next stand
  · intro fewer early returned
    have := Function.IsPeriodicPt.minimalPeriod_le (Nat.succ_pos fewer) returned
    omega

end Bounded

/-- The cells of a walk of some steps. -/
noncomputable def cells (stand : Stand isSet) (steps : Nat) : List Point :=
  (List.range steps).map fun step => (next^[step] stand).point

theorem cells_succ (stand : Stand isSet) (steps : Nat) :
    stand.cells (steps + 1) = stand.point :: stand.next.cells steps := by
  rw [cells, List.range_succ_eq_map, List.map_cons, List.map_map]
  rfl

theorem next_eq_iff {goal stand : Stand isSet} {last : Point}
    (towards : goal.point.neighbor? goal.back = some last) :
    stand.next = goal ↔ stand.next.point = goal.point ∧ stand.point = last := by
  constructor
  · rintro rfl
    rw [stand.neighbor?_next, Option.some.injEq] at towards
    exact ⟨rfl, towards⟩
  · rintro ⟨samePoint, rfl⟩
    apply Stand.ext samePoint
    exact Point.neighbor?_inj (samePoint ▸ stand.neighbor?_next) towards

/-- A walk is followed until it arrives at its goal. -/
theorem follow_eq_cells {goal stand : Stand isSet} {last : Point}
    (towards : goal.point.neighbor? goal.back = some last) {steps fuel : Nat}
    (arrives : next^[steps + 1] stand = goal)
    (notBefore : ∀ fewer < steps, next^[fewer + 1] stand ≠ goal)
    (enough : steps < fuel) (visits : Array Visit) :
    (follow isSet goal.point last fuel stand.point stand.back
        visits).toList.map Visit.point =
      visits.toList.map Visit.point ++ stand.cells (steps + 1) := by
  induction steps generalizing stand fuel visits with
  | zero =>
      obtain ⟨fuel, rfl⟩ := Nat.exists_eq_succ_of_ne_zero enough.ne'
      rw [follow, stand.firstSet?_eq]
      dsimp only
      rw [if_pos ((next_eq_iff towards).1 arrives)]
      simp [cells]
  | succ steps inductionHypothesis =>
      obtain ⟨fuel, rfl⟩ :=
        Nat.exists_eq_succ_of_ne_zero (Nat.ne_zero_of_lt enough)
      have goesOn : ¬ (stand.next.point = goal.point ∧ stand.point = last) :=
        (next_eq_iff towards).not.1 (notBefore 0 (Nat.succ_pos steps))
      rw [follow, stand.firstSet?_eq]
      dsimp only
      rw [if_neg goesOn, Direction.opposite_opposite,
        inductionHypothesis arrives
          (fun fewer early => notBefore (fewer + 1) (Nat.succ_lt_succ early))
          (Nat.lt_of_succ_lt_succ enough),
        cells_succ stand]
      simp

end Stand

/-! ## Closed chains -/

/--
A border that has more than its first cell consists of the cells of a walk that
comes back to where it started.
-/
theorem exists_walk_of_trace {mask : GrayPicture} {start : Point}
    (isSet : mask.silhouette.IsForeground start) (clear : Direction) :
    trace mask start clear = [] ∨
      ∃ (stand : Stand fun point : Point => mask.getD point.x point.y 0 != 0)
        (steps : Nat), Stand.next^[steps + 1] stand = stand ∧
          (trace mask start clear).map Visit.point = stand.cells (steps + 1) := by
  have bounded (point : Point)
      (set : (mask.getD point.x point.y 0 != 0) = true) :
      point.x < mask.width ∧ point.y < mask.height :=
    GrayPicture.contains_of_isForeground
      (GrayPicture.isForeground_silhouette_iff_getD.2 set)
  rw [trace]
  split
  · exact .inl rfl
  · next direction last found =>
      obtain ⟨towards, set, _⟩ := of_firstSet? found
      let stand : Stand fun point : Point => mask.getD point.x point.y 0 != 0 :=
        ⟨start, direction,
          GrayPicture.isForeground_silhouette_iff_getD.1 isSet, last, towards, set⟩
      obtain ⟨steps, enough, returns, notBefore⟩ :=
        Stand.exists_return bounded stand
      right
      refine ⟨stand, steps, returns, ?_⟩
      have followed := @Stand.follow_eq_cells _ stand stand last towards steps
        _ returns notBefore enough #[]
      simpa using followed

end Border

namespace LabelMap

/-- The edges of a chain that comes back to its first place. -/
theorem edges_map_range {places : Nat → Site} {count : Nat}
    (returns : places (count + 1) = places 0) :
    edges ((List.range (count + 1)).map places) =
      (List.range (count + 1)).map fun index =>
        (places index, places (index + 1)) := by
  have rotated : (List.range count).map (fun index => places (index + 1)) ++
      [places 0] = (List.range (count + 1)).map fun index =>
        places (index + 1) := by
    rw [List.range_succ, List.map_append, List.map_singleton, returns]
  have split : (List.range (count + 1)).map places = places 0 ::
      (List.range count).map fun index => places (index + 1) := by
    rw [List.range_succ_eq_map, List.map_cons, List.map_map]
    rfl
  rw [split, edges, rotated, ← split, List.zip_map']

end LabelMap

namespace Border

theorem isClosed_cells {isSet : Point → Bool} {stand : Stand isSet}
    {steps : Nat} (returns : Stand.next^[steps + 1] stand = stand) :
    LabelMap.IsClosed ((stand.cells (steps + 1)).map Point.site) := by
  intro edge member
  rw [Stand.cells, List.map_map, LabelMap.edges_map_range] at member
  · obtain ⟨step, _, rfl⟩ := List.mem_map.1 member
    have touches : (Stand.next^[step] stand).point.Touches
        (Stand.next^[step + 1] stand).point := by
      rw [Function.iterate_succ_apply']
      exact (Stand.next^[step] stand).touches_next
    unfold Point.Touches at touches
    simp only [Site.Touches, Function.comp_apply, Point.x_site, Point.y_site]
    omega
  · simp only [Function.comp_apply, returns, Function.iterate_zero, id]

/-- Consecutive cells of a border touch, and so do the last and the first. -/
theorem isClosed_of_mem_all {mask : GrayPicture} {border : Border}
    (member : border ∈ all mask) : LabelMap.IsClosed border.sites := by
  have closed : ∀ border ∈ (Scan.finish mask).borders,
      LabelMap.IsClosed border.sites := by
    apply @Scan.finish_keeps mask fun scan => ∀ border ∈ scan.borders,
      LabelMap.IsClosed border.sites
    · simp [Scan.start]
    · intro scan enclosing held
      exact held
    · intro scan x y kind beside held border member
      rcases Array.mem_push.1 member with earlier | rfl
      · exact held border earlier
      · rcases exists_walk_of_trace beside.1 (Scan.clearSide kind) with
          alone | ⟨stand, steps, returns, walk⟩
        · simp [sites, alone, LabelMap.IsClosed, LabelMap.edges, Site.Touches]
        · have nonempty :
              (trace mask { x, y } (Scan.clearSide kind)).isEmpty = false := by
            rw [List.isEmpty_eq_false_iff, ne_eq, ← List.map_eq_nil_iff
              (f := Visit.point), walk]
            simp [Stand.cells]
          simp only [sites, nonempty, Bool.false_eq_true, if_false, walk]
          exact isClosed_cells returns
  exact closed border (Array.mem_toList_iff.1 member)

end Border

/-! ## Filled borders -/

namespace LabelMap

/--
Consecutive places of the border of a mask touch, and filling any chain of that
kind follows the even-odd rule.  The chain crosses every row an even number of
times, always in the column of one of its places there, and the pairs use all
crossings.  A cell is labelled exactly if its place lies on the chain or in the
column of a crossing of its row, or has an odd number of crossings to its left;
all such places lie in the bounding box of the chain, and all other cells keep
their labels.
-/
theorem paintFilled_follows_even_odd :
    (∀ (mask : GrayPicture), ∀ border ∈ Border.all mask,
      IsClosed border.sites) ∧
      ∀ (labels : LabelMap) (label : Int) (chain : List Site),
        IsClosed chain →
          (∀ row, Even (crossings chain row).length ∧
            (spans (crossings chain row)).flatMap
              (fun span => [span.1, span.2]) = crossings chain row ∧
            ∀ column ∈ crossings chain row,
              ∃ site ∈ chain, site.y = row ∧ (site.x : Rat) = column) ∧
            (∀ site, IsInside chain site → InBoundingBox chain site) ∧
            (labels.paintFilled chain label).SameSize labels ∧
            ∀ x y : Nat, (labels.paintFilled chain label).get? x y =
              if labels.Contains x y ∧ IsInside chain { x, y } then some label
              else labels.get? x y := by
  refine ⟨fun mask border => Border.isClosed_of_mem_all, ?_⟩
  intro labels label chain closed
  have paints := paintsOn_paintFilled labels chain label
  refine ⟨?_, fun site => inBoundingBox_of_isInside closed, paints.sameSize, ?_⟩
  · intro row
    have even := even_length_crossings chain row
    exact ⟨even, flatMap_spans even,
      fun column => exists_site_of_mem_crossings closed⟩
  · intro x y
    split
    · next inside =>
        exact paints.painted { x, y } (mem_covered_iff.2 inside.2) inside.1
    · next outside =>
        by_cases contained : labels.Contains x y
        · exact paints.kept { x, y } fun member =>
            outside ⟨contained, mem_covered_iff.1 member⟩
        · rw [Raster.get?_eq_none_iff.2 contained, Raster.get?_eq_none_iff,
            Raster.Contains, paints.sameSize.1, paints.sameSize.2]
          exact contained

/--
A diamond with a line of single cells to its right, which runs out of the map, is
a closed chain.  Its center is labelled, and the cell above the line is not.
-/
theorem diamond_with_tail_is_filled :
    let chain : List Site := [⟨1, -1⟩, ⟨0, 0⟩, ⟨0, 1⟩, ⟨1, 2⟩, ⟨2, 1⟩, ⟨3, 1⟩,
      ⟨4, 1⟩, ⟨3, 1⟩, ⟨2, 1⟩, ⟨2, 0⟩]
    let filled := (blank 4 3).paintFilled chain 7
    IsClosed chain ∧ filled.get? 1 1 = some 7 ∧ filled.get? 3 0 = some 0 := by
  intro chain filled
  have closed : IsClosed chain := by decide
  obtain ⟨_, _, _, cells⟩ :=
    paintFilled_follows_even_odd.2 (blank 4 3) 7 chain closed
  have center : IsInside chain { x := 1, y := 1 } := by decide +kernel
  have aboveLine : ¬ IsInside chain { x := 3, y := 0 } := by decide +kernel
  refine ⟨closed, ?_, ?_⟩
  · exact (cells 1 1).trans (if_pos ⟨by decide, center⟩)
  · exact (cells 3 0).trans (if_neg fun both => aboveLine both.2)

end LabelMap

end ScreenCompare
