import ScreenCompare.Canvas
import ScreenCompare.Proofs.Raster

/-!
# What is painted last

Painting a list of cells changes exactly these cells, as far as they lie on the
canvas.  A placed segment paints its outline first and its changes over it, so
at each cell it paints one color or none (`Placement.paint?`).  Segments are
painted one after another, and the last one that paints a cell decides its
color (`exists_renderDifference`).
-/

namespace ScreenCompare

namespace Picture

/-! ## Painting cells -/

theorem sameSize_paint (color : Color) (canvas : Picture) (cell : Int × Int) :
    (paint color canvas cell).SameSize canvas := by
  rw [paint]
  split
  · exact Raster.SameSize.set ..
  · exact Raster.SameSize.refl canvas

theorem get?_paint {color : Color} {canvas : Picture} {cell : Int × Int}
    {x y : Nat} :
    (paint color canvas cell).get? x y =
      if ((x : Int), (y : Int)) = cell then
        (canvas.get? x y).map fun _ => color
      else canvas.get? x y := by
  obtain ⟨column, row⟩ := cell
  rw [paint]
  by_cases here : ((x : Int), (y : Int)) = (column, row)
  · rcases Prod.mk.inj here with ⟨rfl, rfl⟩
    rw [if_pos ⟨Int.natCast_nonneg x, Int.natCast_nonneg y⟩, if_pos rfl,
      Raster.get?_set]
    by_cases inside : canvas.Contains x y
    · rcases Raster.get?_of_contains inside with ⟨before, found⟩
      rw [if_pos ⟨rfl, rfl, inside⟩, found]
      rfl
    · rw [if_neg fun all => inside all.2.2, Raster.get?_eq_none_iff.2 inside]
      rfl
  · rw [if_neg here]
    split
    · next nonnegative =>
        rw [Raster.get?_set, if_neg]
        rintro ⟨sameColumn, sameRow, _⟩
        apply here
        dsimp only at nonnegative sameColumn sameRow
        rw [Prod.mk.injEq]
        omega
    · rfl

theorem sameSize_foldl_paint (color : Color) (cells : List (Int × Int))
    (canvas : Picture) :
    (cells.foldl (paint color) canvas).SameSize canvas := by
  induction cells generalizing canvas with
  | nil => exact Raster.SameSize.refl canvas
  | cons cell rest inductionHypothesis =>
      exact (inductionHypothesis _).trans (sameSize_paint color canvas cell)

/-- Painted cells have the color, and all others are as they were. -/
theorem get?_foldl_paint {color : Color} {cells : List (Int × Int)}
    {canvas : Picture} {x y : Nat} :
    (cells.foldl (paint color) canvas).get? x y =
      if ((x : Int), (y : Int)) ∈ cells then
        (canvas.get? x y).map fun _ => color
      else canvas.get? x y := by
  induction cells generalizing canvas with
  | nil => rfl
  | cons cell rest inductionHypothesis =>
      rw [List.foldl_cons, inductionHypothesis, get?_paint]
      by_cases here : ((x : Int), (y : Int)) = cell
      · simp [here, Function.comp_def]
      · simp [here]

theorem sameSize_drawOutline (canvas : Picture) (area : Rect) (color : Color) :
    (canvas.drawOutline area color).SameSize canvas :=
  sameSize_foldl_paint color area.outlineCells canvas

theorem sameSize_outlineAll (picture : Picture) (segments : List Segment)
    (color : Color) : (picture.outlineAll segments color).SameSize picture := by
  rw [outlineAll]
  induction segments generalizing picture with
  | nil => exact Raster.SameSize.refl picture
  | cons segment rest inductionHypothesis =>
      exact (inductionHypothesis _).trans
        (sameSize_drawOutline picture segment.area color)

theorem sameSize_outlineUnmatched (picture : Picture) (segments : List Segment)
    (color : Color) :
    (picture.outlineUnmatched segments color).SameSize picture :=
  sameSize_outlineAll picture _ color

end Picture

namespace Rect

/-- A rectangle of the same size with its corner at another place. -/
def movedTo (area : Rect) (place : Point) : Rect :=
  { area with left := place.x, top := place.y }

end Rect

namespace Placement

/-! ## Painting placed segments -/

/-- The color that a placed segment paints at a cell, if it paints there. -/
def paint? (old new : Picture) (placement : Placement) (x y : Nat) :
    Option Color :=
  match placement.place with
  | none => none
  | some place =>
      if ((x : Int), (y : Int)) ∈
          changedCells old new placement.segment.area place then
        some Color.changed
      else if ((x : Int), (y : Int)) ∈
          (placement.segment.area.movedTo place).outlineCells then
        some Color.outline
      else none

theorem mem_changedCells {old new : Picture} {area : Rect} {place : Point}
    {x y : Nat} :
    ((x : Int), (y : Int)) ∈ changedCells old new area place ↔
      ∃ across down, across < area.width ∧ down < area.height ∧
        x = place.x + across ∧ y = place.y + down ∧
        ∃ before after, old.get? x y = some before ∧
          new.get? (area.left.toNat + across) (area.top.toNat + down) =
            some after ∧ before ≠ after := by
  simp only [changedCells, List.mem_flatMap, List.mem_filterMap,
    List.mem_range]
  constructor
  · rintro ⟨down, rowInside, across, columnInside, differs⟩
    split at differs
    · next before after oldFound newFound =>
        rw [Option.ite_none_left_eq_some, Option.some.injEq, Prod.mk.injEq]
          at differs
        rcases differs with ⟨different, sameColumn, sameRow⟩
        obtain rfl : place.x + across = x := by omega
        obtain rfl : place.y + down = y := by omega
        exact ⟨across, down, columnInside, rowInside, rfl, rfl, before, after,
          oldFound, newFound, different⟩
    · cases differs
  · rintro ⟨across, down, columnInside, rowInside, rfl, rfl, before, after,
      oldFound, newFound, different⟩
    refine ⟨down, rowInside, across, columnInside, ?_⟩
    rw [oldFound, newFound]
    simp [different]

/-- Where nothing is painted, the color stays. -/
theorem map_getD_none (color : Option Color) :
    color.map (none : Option Color).getD = color := by
  cases color <;> rfl

theorem sameSize_paintOn (old new canvas : Picture) (placement : Placement) :
    (paintOn old new canvas placement).SameSize canvas := by
  rw [paintOn]
  split
  · exact Raster.SameSize.refl canvas
  · exact (Picture.sameSize_foldl_paint ..).trans
      (Picture.sameSize_drawOutline ..)

theorem get?_paintOn {old new canvas : Picture} {placement : Placement}
    {x y : Nat} :
    (paintOn old new canvas placement).get? x y =
      (canvas.get? x y).map (placement.paint? old new x y).getD := by
  obtain ⟨segment, place⟩ := placement
  cases place with
  | none => exact (map_getD_none _).symm
  | some place =>
      simp only [paintOn, paint?]
      rw [Picture.get?_foldl_paint, Picture.drawOutline,
        Picture.get?_foldl_paint, ← Rect.movedTo]
      split
      · split
        · rw [Option.map_map]
          rfl
        · rfl
      · split
        · rfl
        · exact (map_getD_none _).symm

/-- The last color among some that may be missing. -/
def lastPaint? (paints : List (Option Color)) : Option Color :=
  paints.reverse.findSome? id

theorem lastPaint?_append (first second : List (Option Color)) :
    lastPaint? (first ++ second) = (lastPaint? second).or (lastPaint? first) := by
  simp [lastPaint?, List.findSome?_append]

theorem lastPaint?_singleton (paint : Option Color) :
    lastPaint? [paint] = paint := by
  cases paint <;> rfl

theorem lastPaint?_eq_none_iff {paints : List (Option Color)} :
    lastPaint? paints = none ↔ ∀ paint ∈ paints, paint = none := by
  simp [lastPaint?]

/-- The last color is followed by nothing but missing ones. -/
theorem exists_split_of_lastPaint? {paints : List (Option Color)}
    {color : Color} (last : lastPaint? paints = some color) :
    ∃ before after, paints = before ++ some color :: after ∧
      ∀ paint ∈ after, paint = none := by
  rcases List.findSome?_eq_some_iff.1 last with
    ⟨after, _, before, reversed, rfl, missing⟩
  refine ⟨before.reverse, after.reverse, ?_, ?_⟩
  · simpa using congrArg List.reverse reversed
  · intro paint member
    exact missing paint (List.mem_reverse.1 member)

theorem sameSize_foldl_paintOn (old new : Picture)
    (placements : List Placement) (canvas : Picture) :
    (placements.foldl (paintOn old new) canvas).SameSize canvas := by
  induction placements generalizing canvas with
  | nil => exact Raster.SameSize.refl canvas
  | cons placement rest inductionHypothesis =>
      exact (inductionHypothesis _).trans (sameSize_paintOn ..)

/--
Of some placed segments the last one that paints a cell decides its color.
-/
theorem get?_foldl_paintOn {old new canvas : Picture}
    {placements : List Placement} {x y : Nat} :
    (placements.foldl (paintOn old new) canvas).get? x y =
      (canvas.get? x y).map
        (lastPaint? (placements.map fun placement =>
          placement.paint? old new x y)).getD := by
  induction placements generalizing canvas with
  | nil => exact (map_getD_none _).symm
  | cons placement rest inductionHypothesis =>
      rw [List.foldl_cons, inductionHypothesis, get?_paintOn, Option.map_map,
        List.map_cons, ← List.singleton_append, lastPaint?_append,
        lastPaint?_singleton]
      congr 1
      funext before
      simp [Option.getD_or]

end Placement

namespace MatchPair

/--
The color that the new segment of a pair paints at a cell of the old picture.
-/
def paint? (old : Picture) (oldGray : GrayPicture) (new : Picture)
    (segments : List Segment) (x y : Nat) (pair : MatchPair) : Option Color :=
  segments[pair.new]?.bind fun segment =>
    Placement.paint? old new
      { segment, place := oldGray.bestPlace? segment.crop } x y

end MatchPair

namespace Placement

/-- If all pairs name segments, all of these are placed. -/
theorem exists_mapM_ofPair {segments : List Segment} {pairs : List MatchPair}
    (known : ∀ pair ∈ pairs, pair.new < segments.length)
    (oldGray : GrayPicture) :
    ∃ placements, pairs.mapM (ofPair oldGray segments) = .ok placements ∧
      ∀ old new x y, placements.map (fun placement =>
          placement.paint? old new x y) =
        pairs.map (MatchPair.paint? old oldGray new segments x y) := by
  induction pairs with
  | nil => exact ⟨[], rfl, fun _ _ _ _ => rfl⟩
  | cons pair rest inductionHypothesis =>
      rw [List.forall_mem_cons] at known
      rcases inductionHypothesis known.2 with ⟨placements, placed, paints⟩
      have found := List.getElem?_eq_getElem known.1
      let placement : Placement :=
        { segment := segments[pair.new]
          place := oldGray.bestPlace? segments[pair.new].crop }
      have first : ofPair oldGray segments pair = .ok placement := by
        rw [ofPair, found]
      refine ⟨placement :: placements, ?_, ?_⟩
      · rw [List.mapM_cons, first, placed]
        rfl
      · intro old new x y
        rw [List.map_cons, List.map_cons, paints, MatchPair.paint?, found]
        rfl

/-- Pairs are placed only if all of them name segments. -/
theorem known_of_mapM_ofPair {segments : List Segment}
    {pairs : List MatchPair} {oldGray : GrayPicture}
    {placements : List Placement}
    (placed : pairs.mapM (ofPair oldGray segments) = .ok placements) :
    ∀ pair ∈ pairs, pair.new < segments.length := by
  induction pairs generalizing placements with
  | nil => simp
  | cons pair rest inductionHypothesis =>
      rw [List.mapM_cons] at placed
      cases first : ofPair oldGray segments pair with
      | error misuse =>
          rw [first] at placed
          cases placed
      | ok placement =>
          rw [first] at placed
          cases others : rest.mapM (ofPair oldGray segments) with
          | error misuse =>
              rw [others] at placed
              cases placed
          | ok otherPlacements =>
              rw [List.forall_mem_cons]
              refine ⟨?_, inductionHypothesis others⟩
              apply Classical.byContradiction
              intro unknown
              rw [ofPair, List.getElem?_eq_none (Nat.le_of_not_lt unknown)]
                at first
              cases first

end Placement

namespace Picture

/-- A difference is rendered only if all pairs name segments. -/
theorem known_of_renderDifference {old new canvas : Picture}
    {oldGray : GrayPicture} {segments : List Segment} {pairs : List MatchPair}
    (rendered : old.renderDifference oldGray new segments pairs = .ok canvas) :
    ∀ pair ∈ pairs, pair.new < segments.length := by
  rw [renderDifference] at rendered
  cases placed : pairs.mapM (Placement.ofPair oldGray segments) with
  | error misuse =>
      rw [placed] at rendered
      cases rendered
  | ok placements => exact Placement.known_of_mapM_ofPair placed

/--
If all pairs name segments, the old picture is painted over by these, and at
each cell the last one that paints there decides.
-/
theorem exists_renderDifference {segments : List Segment}
    {pairs : List MatchPair}
    (known : ∀ pair ∈ pairs, pair.new < segments.length)
    (old : Picture) (oldGray : GrayPicture) (new : Picture) :
    ∃ canvas, old.renderDifference oldGray new segments pairs = .ok canvas ∧
      canvas.SameSize old ∧
      ∀ x y, canvas.get? x y = (old.get? x y).map
        (Placement.lastPaint? (pairs.map
          (MatchPair.paint? old oldGray new segments x y))).getD := by
  rcases Placement.exists_mapM_ofPair known oldGray with
    ⟨placements, placed, paints⟩
  refine ⟨placements.foldl (Placement.paintOn old new) old, ?_,
    Placement.sameSize_foldl_paintOn old new placements old, ?_⟩
  · rw [renderDifference, placed]
    rfl
  · intro x y
    rw [Placement.get?_foldl_paintOn, paints]

theorem sameSize_of_renderDifference {old new canvas : Picture}
    {oldGray : GrayPicture} {segments : List Segment} {pairs : List MatchPair}
    (rendered : old.renderDifference oldGray new segments pairs = .ok canvas) :
    canvas.SameSize old := by
  rcases exists_renderDifference (known_of_renderDifference rendered) old
    oldGray new with ⟨other, otherRendered, sameSize, _⟩
  obtain rfl := Except.ok.inj (rendered.symm.trans otherRendered)
  exact sameSize

end Picture

end ScreenCompare
