import ScreenCompare.Color.Luma
import ScreenCompare.Proofs.Canvas
import ScreenCompare.Proofs.Canvas.TemplateSearch
import ScreenCompare.Proofs.Segment

/-!
# Which changes the difference canvas shows

A cell at which old and new colors differ under a pair is painted as changed,
but the pair is not alone: the outline of a later one may pass through the cell
and cover it (`renderDifference_shows_changes`).

Content that has merely moved is searched by its brightness, and the first place
where the brightness agrees is taken.  There the colors may still differ, since
different colors can be equally bright; only such cells are painted as changed
(`renderDifference_of_moved`).
-/

namespace ScreenCompare

namespace MatchPair

variable {old new : Picture} {oldGray : GrayPicture} {segments : List Segment}
  {pair : MatchPair} {x y : Nat}

/-! ## What a pair says about a cell -/

/--
A pair lays a cell of the new picture on a cell of the old one: the cell is an
offset of the area of the pair's new segment, laid on the place where its crop
was found.  The two colors are those before and after.
-/
def Compares (old : Picture) (oldGray : GrayPicture) (new : Picture)
    (segments : List Segment) (pair : MatchPair) (x y : Nat)
    (before after : Color) : Prop :=
  ∃ segment place, segments[pair.new]? = some segment ∧
    oldGray.bestPlace? segment.crop = some place ∧
    ∃ across down, across < segment.area.width ∧ down < segment.area.height ∧
      x = place.x + across ∧ y = place.y + down ∧
      old.get? x y = some before ∧
      new.get? (segment.area.left.toNat + across)
        (segment.area.top.toNat + down) = some after

/--
Under a pair, the old and the new picture differ at a cell of the old one.
-/
def Changes (old : Picture) (oldGray : GrayPicture) (new : Picture)
    (segments : List Segment) (pair : MatchPair) (x y : Nat) : Prop :=
  ∃ before after, pair.Compares old oldGray new segments x y before after ∧
    before ≠ after

theorem Changes.exists_color
    (changes : pair.Changes old oldGray new segments x y) :
    ∃ before, old.get? x y = some before := by
  rcases changes with ⟨before, _, ⟨_, _, _, _, _, _, _, _, _, _, found, _⟩, _⟩
  exact ⟨before, found⟩

/--
A cell lies on the outline of the pair's new segment, moved to the place where
its crop was found.
-/
def Outlines (oldGray : GrayPicture) (segments : List Segment)
    (pair : MatchPair) (x y : Nat) : Prop :=
  ∃ segment place, segments[pair.new]? = some segment ∧
    oldGray.bestPlace? segment.crop = some place ∧
    (segment.area.movedTo place).OnOutline x y

section Placed

variable {segment : Segment} {place : Point}
  (found : segments[pair.new]? = some segment)
  (placed : oldGray.bestPlace? segment.crop = some place)

include found placed

theorem compares_iff {before after : Color} :
    pair.Compares old oldGray new segments x y before after ↔
      ∃ across down, across < segment.area.width ∧
        down < segment.area.height ∧
        x = place.x + across ∧ y = place.y + down ∧
        old.get? x y = some before ∧
        new.get? (segment.area.left.toNat + across)
          (segment.area.top.toNat + down) = some after := by
  constructor
  · rintro ⟨other, otherPlace, otherFound, otherPlaced, offset⟩
    obtain rfl := Option.some.inj (found.symm.trans otherFound)
    obtain rfl := Option.some.inj (placed.symm.trans otherPlaced)
    exact offset
  · intro offset
    exact ⟨segment, place, found, placed, offset⟩

theorem changes_iff_mem :
    pair.Changes old oldGray new segments x y ↔
      ((x : Int), (y : Int)) ∈
        Placement.changedCells old new segment.area place := by
  rw [Placement.mem_changedCells]
  simp only [Changes, compares_iff found placed]
  constructor
  · rintro ⟨before, after, ⟨across, down, columnInside, rowInside, sameColumn,
      sameRow, oldFound, newFound⟩, different⟩
    exact ⟨across, down, columnInside, rowInside, sameColumn, sameRow, before,
      after, oldFound, newFound, different⟩
  · rintro ⟨across, down, columnInside, rowInside, sameColumn, sameRow, before,
      after, oldFound, newFound, different⟩
    exact ⟨before, after, ⟨across, down, columnInside, rowInside, sameColumn,
      sameRow, oldFound, newFound⟩, different⟩

theorem outlines_iff_mem (columns : 0 < segment.area.width)
    (rows : 0 < segment.area.height) :
    pair.Outlines oldGray segments x y ↔
      ((x : Int), (y : Int)) ∈ (segment.area.movedTo place).outlineCells := by
  have cells : ((x : Int), (y : Int)) ∈
      (segment.area.movedTo place).outlineCells ↔
        (segment.area.movedTo place).OnOutline x y :=
    Rect.mem_outlineCells columns rows
  rw [cells]
  constructor
  · rintro ⟨other, otherPlace, otherFound, otherPlaced, onOutline⟩
    obtain rfl := Option.some.inj (found.symm.trans otherFound)
    obtain rfl := Option.some.inj (placed.symm.trans otherPlaced)
    exact onOutline
  · intro onOutline
    exact ⟨segment, place, found, placed, onOutline⟩

theorem paint?_of_placed :
    pair.paint? old oldGray new segments x y =
      if ((x : Int), (y : Int)) ∈
          Placement.changedCells old new segment.area place then
        some Color.changed
      else if ((x : Int), (y : Int)) ∈
          (segment.area.movedTo place).outlineCells then
        some Color.outline
      else none := by
  rw [paint?, found, Option.bind_some, placed]
  rfl

end Placed

/-- Only placed segments paint. -/
theorem exists_place_of_paint? {color : Color}
    (painted : pair.paint? old oldGray new segments x y = some color) :
    ∃ segment place, segments[pair.new]? = some segment ∧
      oldGray.bestPlace? segment.crop = some place := by
  rw [paint?, Option.bind_eq_some_iff] at painted
  rcases painted with ⟨segment, found, painted⟩
  cases placed : oldGray.bestPlace? segment.crop with
  | none =>
      rw [placed] at painted
      cases painted
  | some place => exact ⟨segment, place, found, placed⟩

theorem paint?_eq_changed_iff :
    pair.paint? old oldGray new segments x y = some Color.changed ↔
      pair.Changes old oldGray new segments x y := by
  constructor
  · intro painted
    rcases exists_place_of_paint? painted with ⟨segment, place, found, placed⟩
    rw [changes_iff_mem found placed]
    rw [paint?_of_placed found placed] at painted
    split at painted
    · assumption
    · split at painted <;> exact absurd painted (by decide)
  · intro changes
    have ⟨_, _, ⟨segment, place, found, placed, _⟩, _⟩ := changes
    rw [paint?_of_placed found placed,
      if_pos ((changes_iff_mem found placed).1 changes)]

/-- Outlines are painted wherever nothing has changed. -/
theorem paint?_eq_outline_iff
    (cells : ∀ segment, segments[pair.new]? = some segment →
      0 < segment.area.width ∧ 0 < segment.area.height) :
    pair.paint? old oldGray new segments x y = some Color.outline ↔
      pair.Outlines oldGray segments x y ∧
        ¬ pair.Changes old oldGray new segments x y := by
  constructor
  · intro painted
    rcases exists_place_of_paint? painted with ⟨segment, place, found, placed⟩
    rcases cells segment found with ⟨columns, rows⟩
    rw [changes_iff_mem found placed,
      outlines_iff_mem found placed columns rows]
    rw [paint?_of_placed found placed] at painted
    split at painted
    · exact absurd painted (by decide)
    · next unchanged =>
        split at painted
        · next onOutline => exact ⟨onOutline, unchanged⟩
        · cases painted
  · rintro ⟨outlines, unchanged⟩
    have ⟨segment, place, found, placed, _⟩ := outlines
    rcases cells segment found with ⟨columns, rows⟩
    rw [paint?_of_placed found placed,
      if_neg (mt (changes_iff_mem found placed).2 unchanged),
      if_pos ((outlines_iff_mem found placed columns rows).1 outlines)]

theorem paint?_eq_changed_or_outline {color : Color}
    (painted : pair.paint? old oldGray new segments x y = some color) :
    color = Color.changed ∨ color = Color.outline := by
  rcases exists_place_of_paint? painted with ⟨segment, place, found, placed⟩
  rw [paint?_of_placed found placed] at painted
  split at painted
  · exact Or.inl (Option.some.inj painted).symm
  · split at painted
    · exact Or.inr (Option.some.inj painted).symm
    · cases painted

/-! ## Covered changes -/

/--
Some pairs cover a cell with an outline: one of them has the cell on its
outline, and neither this one nor any after it finds a change there.
-/
def Cover (old : Picture) (oldGray : GrayPicture) (new : Picture)
    (segments : List Segment) (pairs : List MatchPair) (x y : Nat) : Prop :=
  ∃ before pair after, pairs = before ++ pair :: after ∧
    pair.Outlines oldGray segments x y ∧
    ∀ other ∈ pair :: after, ¬ other.Changes old oldGray new segments x y

theorem exists_pair_of_lastPaint? {pairs : List MatchPair} {color : Color}
    (last : Placement.lastPaint?
      (pairs.map (paint? old oldGray new segments x y)) = some color) :
    ∃ pair ∈ pairs, pair.paint? old oldGray new segments x y = some color := by
  rcases Placement.exists_split_of_lastPaint? last with ⟨_, _, split, _⟩
  have member : some color ∈
      pairs.map (paint? old oldGray new segments x y) := by
    rw [split]
    exact List.mem_append_right _ (List.mem_cons_self ..)
  exact List.mem_map.1 member

theorem lastPaint?_eq_changed_or_outline {pairs : List MatchPair}
    {color : Color}
    (last : Placement.lastPaint?
      (pairs.map (paint? old oldGray new segments x y)) = some color) :
    color = Color.changed ∨ color = Color.outline := by
  rcases exists_pair_of_lastPaint? last with ⟨_, _, painted⟩
  exact paint?_eq_changed_or_outline painted

theorem lastPaint?_eq_outline_iff
    (cells : ∀ segment ∈ segments,
      0 < segment.area.width ∧ 0 < segment.area.height)
    {pairs : List MatchPair} :
    Placement.lastPaint? (pairs.map (paint? old oldGray new segments x y)) =
        some Color.outline ↔
      Cover old oldGray new segments pairs x y := by
  have known (pair : MatchPair) (segment : Segment)
      (found : segments[pair.new]? = some segment) :
      0 < segment.area.width ∧ 0 < segment.area.height :=
    cells segment (List.mem_of_getElem? found)
  constructor
  · intro last
    rcases Placement.exists_split_of_lastPaint? last with
      ⟨beforePaints, afterPaints, split, missing⟩
    rcases List.map_eq_append_iff.1 split with
      ⟨before, rest, rfl, rfl, restPaints⟩
    rcases List.map_eq_cons_iff.1 restPaints with
      ⟨pair, after, rfl, painted, rfl⟩
    rw [paint?_eq_outline_iff (known pair)] at painted
    refine ⟨before, pair, after, rfl, painted.1, ?_⟩
    rw [List.forall_mem_cons]
    refine ⟨painted.2, ?_⟩
    intro other member changes
    rw [← paint?_eq_changed_iff,
      missing _ (List.mem_map_of_mem member)] at changes
    cases changes
  · rintro ⟨before, pair, after, rfl, outlines, unchanged⟩
    rw [List.forall_mem_cons] at unchanged
    have painted :=
      (paint?_eq_outline_iff (known pair)).2 ⟨outlines, unchanged.1⟩
    rw [List.map_append, List.map_cons, Placement.lastPaint?_append,
      ← List.singleton_append, Placement.lastPaint?_append,
      Placement.lastPaint?_singleton, painted]
    -- Whatever is painted after the outline is an outline again.
    cases last : Placement.lastPaint?
        (after.map (paint? old oldGray new segments x y)) with
    | none => rfl
    | some color =>
        rcases exists_pair_of_lastPaint? last with
          ⟨other, member, otherPainted⟩
        rcases paint?_eq_changed_or_outline otherPainted with rfl | rfl
        · exact absurd (paint?_eq_changed_iff.1 otherPainted)
            (unchanged.2 other member)
        · rfl

/-! ## A single pair -/

/--
A canvas shows the old picture under the paint of one pair: its changes, its
outline as far as it lies on the canvas, and the old colors elsewhere.
-/
structure IsPaintedOn (old : Picture) (oldGray : GrayPicture) (new : Picture)
    (segments : List Segment) (pair : MatchPair) (canvas : Picture) : Prop where
  sameSize : canvas.SameSize old
  changed : ∀ x y, pair.Changes old oldGray new segments x y →
    canvas.get? x y = some Color.changed
  outline : ∀ x y, ¬ pair.Changes old oldGray new segments x y →
    pair.Outlines oldGray segments x y →
      canvas.get? x y = (old.get? x y).map fun _ => Color.outline
  elsewhere : ∀ x y, ¬ pair.Changes old oldGray new segments x y →
    ¬ pair.Outlines oldGray segments x y → canvas.get? x y = old.get? x y

end MatchPair

namespace Picture

/--
Wherever some pair finds a change, the difference canvas shows the color of
changes, unless later pairs cover the cell with an outline; then it shows the
color of outlines.  No canvas is rendered only if a pair names no segment.
-/
theorem renderDifference_shows_changes {old new : Picture}
    {oldGray : GrayPicture} {segments : List Segment} {pairs : List MatchPair}
    (inside : ∀ segment ∈ segments,
      segment.area.FitsInside new.width new.height) :
    match old.renderDifference oldGray new segments pairs with
    | .error _ => ∃ pair ∈ pairs, segments.length ≤ pair.new
    | .ok canvas =>
        ∀ earlier pair later x y, pairs = earlier ++ pair :: later →
          pair.Changes old oldGray new segments x y →
            (MatchPair.Cover old oldGray new segments later x y →
              canvas.get? x y = some Color.outline) ∧
            (¬ MatchPair.Cover old oldGray new segments later x y →
              canvas.get? x y = some Color.changed) := by
  have cells (segment : Segment) (member : segment ∈ segments) :
      0 < segment.area.width ∧ 0 < segment.area.height :=
    ⟨(inside segment member).1, (inside segment member).2.1⟩
  by_cases known : ∀ pair ∈ pairs, pair.new < segments.length
  · rcases exists_renderDifference known old oldGray new with
      ⟨canvas, rendered, _, colors⟩
    rw [rendered]
    intro earlier pair later x y split changes
    rcases changes.exists_color with ⟨before, oldFound⟩
    rw [colors, oldFound, Option.map_some, split, List.map_append,
      List.map_cons, ← List.singleton_append, Placement.lastPaint?_append,
      Placement.lastPaint?_append, Placement.lastPaint?_singleton,
      MatchPair.paint?_eq_changed_iff.2 changes,
      ← MatchPair.lastPaint?_eq_outline_iff cells]
    cases last : Placement.lastPaint? (later.map
        (MatchPair.paint? old oldGray new segments x y)) with
    | none => simp
    | some color =>
        rcases MatchPair.lastPaint?_eq_changed_or_outline last with rfl | rfl
        · exact ⟨fun outlines => outlines, fun _ => rfl⟩
        · exact ⟨fun _ => rfl, fun uncovered => absurd rfl uncovered⟩
  · cases rendered : old.renderDifference oldGray new segments pairs with
    | error misuse =>
        simpa only [Classical.not_forall, Nat.not_lt, exists_prop] using known
    | ok canvas => exact absurd (known_of_renderDifference rendered) known

/--
An old picture of one white cell, a new one of a black and a white cell, and
the segments over these.  Painted last, the change from white to black is shown.
-/
theorem last_change_is_shown :
    let old : Picture := Raster.filled 1 1 (Color.ofGray 255)
    let new : Picture :=
      Raster.ofFn 2 1 fun x _ => Color.ofGray (if x = 0 then 0 else 255)
    let segments : List Segment :=
      [.cut .new ⟨0, 0, 1, 1⟩ new.luma, .cut .new ⟨1, 0, 1, 1⟩ new.luma]
    (∀ segment ∈ segments, segment.area.FitsInside new.width new.height) ∧
      ∃ canvas, old.renderDifference old.luma new segments
          [⟨1, 1⟩, ⟨0, 0⟩] = .ok canvas ∧
        canvas.get? 0 0 = some Color.changed := by
  intro old new segments
  have inside : ∀ segment ∈ segments,
      segment.area.FitsInside new.width new.height := by
    decide
  have known : ∀ pair ∈ [MatchPair.mk 1 1, MatchPair.mk 0 0],
      pair.new < segments.length := by
    decide
  rcases exists_renderDifference known old old.luma new with
    ⟨canvas, rendered, _⟩
  have shown := @renderDifference_shows_changes old new old.luma segments
    [⟨1, 1⟩, ⟨0, 0⟩] inside
  rw [rendered] at shown
  refine ⟨inside, canvas, rendered, ?_⟩
  refine (shown [⟨1, 1⟩] ⟨0, 0⟩ [] 0 0 rfl ?_).2 ?_
  · rw [← MatchPair.paint?_eq_changed_iff]
    decide +kernel
  · rintro ⟨before, _, _, split, _⟩
    simp at split

/-- In the other order, the outline of the white cell covers the change. -/
theorem later_outline_covers_change :
    let old : Picture := Raster.filled 1 1 (Color.ofGray 255)
    let new : Picture :=
      Raster.ofFn 2 1 fun x _ => Color.ofGray (if x = 0 then 0 else 255)
    let segments : List Segment :=
      [.cut .new ⟨0, 0, 1, 1⟩ new.luma, .cut .new ⟨1, 0, 1, 1⟩ new.luma]
    (∀ segment ∈ segments, segment.area.FitsInside new.width new.height) ∧
      MatchPair.Changes old old.luma new segments ⟨0, 0⟩ 0 0 ∧
      ∃ canvas, old.renderDifference old.luma new segments
          [⟨0, 0⟩, ⟨1, 1⟩] = .ok canvas ∧
        canvas.get? 0 0 = some Color.outline ∧
        canvas.get? 0 0 ≠ some Color.changed := by
  intro old new segments
  have known : ∀ pair ∈ [MatchPair.mk 0 0, MatchPair.mk 1 1],
      pair.new < segments.length := by
    decide
  rcases exists_renderDifference known old old.luma new with
    ⟨canvas, rendered, _, colors⟩
  have covered : canvas.get? 0 0 = some Color.outline := by
    rw [colors]
    decide +kernel
  refine ⟨by decide, ?_, canvas, rendered, covered, ?_⟩
  · rw [← MatchPair.paint?_eq_changed_iff]
    decide +kernel
  · rw [covered]
    decide

theorem exists_renderDifference_singleton {segments : List Segment}
    {pair : MatchPair} {segment : Segment}
    (found : segments[pair.new]? = some segment)
    (columns : 0 < segment.area.width) (rows : 0 < segment.area.height)
    (old : Picture) (oldGray : GrayPicture) (new : Picture) :
    ∃ canvas, old.renderDifference oldGray new segments [pair] = .ok canvas ∧
      pair.IsPaintedOn old oldGray new segments canvas := by
  have known : ∀ other ∈ [pair], other.new < segments.length := by
    simpa using (List.getElem?_eq_some_iff.1 found).1
  rcases exists_renderDifference known old oldGray new with
    ⟨canvas, rendered, sameSize, colors⟩
  simp only [List.map_cons, List.map_nil, Placement.lastPaint?_singleton]
    at colors
  have cells (other : Segment) (otherFound : segments[pair.new]? = some other) :
      0 < other.area.width ∧ 0 < other.area.height := by
    obtain rfl := Option.some.inj (found.symm.trans otherFound)
    exact ⟨columns, rows⟩
  refine ⟨canvas, rendered, sameSize, ?_, ?_, ?_⟩
  · intro x y changes
    rcases changes.exists_color with ⟨before, oldFound⟩
    rw [colors, MatchPair.paint?_eq_changed_iff.2 changes, oldFound]
    rfl
  · intro x y unchanged outlines
    rw [colors, (MatchPair.paint?_eq_outline_iff cells).2
      ⟨outlines, unchanged⟩]
    rfl
  · intro x y unchanged apart
    rw [colors]
    cases painted : pair.paint? old oldGray new segments x y with
    | none => exact Placement.map_getD_none _
    | some color =>
        rcases MatchPair.paint?_eq_changed_or_outline painted with rfl | rfl
        · exact absurd (MatchPair.paint?_eq_changed_iff.1 painted) unchanged
        · exact absurd ((MatchPair.paint?_eq_outline_iff cells).1 painted).1
            apart

/-! ## Content that has moved -/

/--
Laid on a place of the old picture, an area of the new one shows the same colors.
-/
def ShowsAreaAt (old new : Picture) (area : Rect) (place : Point) : Prop :=
  ∀ across < area.width, ∀ down < area.height,
    old.get? (place.x + across) (place.y + down) =
      new.get? (area.left.toNat + across) (area.top.toNat + down)

instance (old new : Picture) (area : Rect) (place : Point) :
    Decidable (old.ShowsAreaAt new area place) :=
  inferInstanceAs (Decidable (∀ across < _, ∀ down < _, _ = _))

section Moved

variable {old new : Picture} {segment : Segment} {place : Point}
  (cut : segment.CutFrom new.luma)

include cut

/-- The offsets of a segment's area are cells of the picture. -/
theorem exists_color_of_cutFrom {across down : Nat}
    (columnInside : across < segment.area.width)
    (rowInside : down < segment.area.height) :
    ∃ color, new.get? (segment.area.left.toNat + across)
      (segment.area.top.toNat + down) = some color := by
  have fits := cut.fits
  simp only [Rect.FitsInside, Rect.right, Rect.bottom, luma, Raster.map] at fits
  apply Raster.get?_of_contains
  unfold Raster.Contains
  omega

/-- The crop of a segment holds the brightness of its area. -/
theorem get?_crop_of_cutFrom {across down : Nat}
    (columnInside : across < segment.area.width)
    (rowInside : down < segment.area.height) :
    segment.crop.get? across down =
      (new.get? (segment.area.left.toNat + across)
        (segment.area.top.toNat + down)).map Luma.ofColor := by
  rcases exists_color_of_cutFrom cut columnInside rowInside with ⟨color, found⟩
  rw [cut.crop_eq, Raster.get?_crop, if_pos ⟨columnInside, rowInside⟩, luma,
    Raster.get?_map, found]
  rfl

/-- Where an area shows the same colors, its crop matches in brightness. -/
theorem hasCopyAt_of_showsAreaAt
    (shows : old.ShowsAreaAt new segment.area place) :
    old.luma.HasCopyAt segment.crop place := by
  have width := cut.width_crop
  have height := cut.height_crop
  have lastColumn : segment.area.width - 1 < segment.area.width :=
    Nat.sub_one_lt_of_lt cut.fits.1
  have lastRow : segment.area.height - 1 < segment.area.height :=
    Nat.sub_one_lt_of_lt cut.fits.2.1
  constructor
  · -- The last cell of the area is shown, so all of it has room.
    rcases exists_color_of_cutFrom cut lastColumn lastRow with ⟨color, found⟩
    rw [← shows _ lastColumn _ lastRow] at found
    have corner : old.luma.Contains (place.x + (segment.area.width - 1))
        (place.y + (segment.area.height - 1)) :=
      (Raster.contains_of_get? found : old.Contains _ _)
    unfold Raster.Contains at corner
    unfold GrayPicture.HasRoomAt
    omega
  · intro across down inside
    have columnInside : across < segment.area.width := width ▸ inside.1
    have rowInside : down < segment.area.height := height ▸ inside.2
    rw [get?_crop_of_cutFrom cut columnInside rowInside, luma, Raster.get?_map,
      shows across columnInside down rowInside]

/-- Cells that a pair compares are equally bright if it is placed on a match. -/
theorem brightness_eq_of_compares {segments : List Segment} {pair : MatchPair}
    {x y : Nat} {before after : Color}
    (found : segments[pair.new]? = some segment)
    (placed : old.luma.bestPlace? segment.crop = some place)
    (copy : old.luma.HasCopyAt segment.crop place)
    (compares :
      pair.Compares old old.luma new segments x y before after) :
    Luma.ofColor before = Luma.ofColor after := by
  rcases (MatchPair.compares_iff found placed).1 compares with
    ⟨across, down, columnInside, rowInside, rfl, rfl, oldFound, newFound⟩
  have cropFound := get?_crop_of_cutFrom cut columnInside rowInside
  have same := copy.2 across down (Raster.contains_of_get?
    (cropFound.trans (congrArg (Option.map Luma.ofColor) newFound)))
  rw [cropFound, newFound, luma, Raster.get?_map, oldFound] at same
  exact (Option.some.inj same).symm

omit cut in
/-- A pair that is placed where its content is shown finds no change. -/
theorem not_changes_of_showsAreaAt {segments : List Segment}
    {pair : MatchPair} {oldGray : GrayPicture}
    (found : segments[pair.new]? = some segment)
    (placed : oldGray.bestPlace? segment.crop = some place)
    (shows : old.ShowsAreaAt new segment.area place) (x y : Nat) :
    ¬ pair.Changes old oldGray new segments x y := by
  rintro ⟨before, after, compares, different⟩
  rcases (MatchPair.compares_iff found placed).1 compares with
    ⟨across, down, columnInside, rowInside, rfl, rfl, oldFound, newFound⟩
  rw [shows across columnInside down rowInside, newFound] at oldFound
  exact different (Option.some.inj oldFound).symm

end Moved

/--
Content that occurs in the old picture is laid on the first place that matches
it in brightness.  Any cells compared there are equally bright, so those painted
as changed differ in color but not in brightness; and if the place shows the
content color for color, nothing but the outline is painted.
-/
theorem renderDifference_of_moved {old new : Picture}
    {segments : List Segment} {pair : MatchPair} {segment : Segment}
    {place : Point} (found : segments[pair.new]? = some segment)
    (cut : segment.CutFrom new.luma)
    (shows : old.ShowsAreaAt new segment.area place) :
    ∃ first canvas,
      old.luma.bestPlace? segment.crop = some first ∧
      old.luma.HasCopyAt segment.crop first ∧
      (∀ other, old.luma.HasCopyAt segment.crop other →
        ¬ other.Before first) ∧
      old.renderDifference old.luma new segments [pair] = .ok canvas ∧
      pair.IsPaintedOn old old.luma new segments canvas ∧
      (∀ x y before after,
        pair.Compares old old.luma new segments x y before after →
          Luma.ofColor before = Luma.ofColor after) ∧
      (old.ShowsAreaAt new segment.area first →
        ∀ x y, ¬ pair.Changes old old.luma new segments x y) := by
  have fits := cut.fits
  have cells : ¬ segment.crop.IsEmpty := by
    rw [cut.crop_eq]
    rintro (empty | empty)
    · exact Nat.ne_of_gt fits.1 empty
    · exact Nat.ne_of_gt fits.2.1 empty
  rcases GrayPicture.exists_bestPlace?_of_copy cells
    (hasCopyAt_of_showsAreaAt cut shows) with ⟨first, placed, copy, earliest⟩
  rcases exists_renderDifference_singleton found fits.1 fits.2.1 old old.luma
    new with ⟨canvas, rendered, painted⟩
  exact ⟨first, canvas, placed, copy, earliest, rendered, painted,
    fun _ _ _ _ => brightness_eq_of_compares cut found placed copy,
    not_changes_of_showsAreaAt found placed⟩

/--
A black cell that has moved to the right is found there, and only outlined.
-/
theorem moved_cell_is_unchanged :
    let old : Picture :=
      Raster.ofFn 2 1 fun x _ => Color.ofGray (if x = 0 then 255 else 0)
    let new : Picture :=
      Raster.ofFn 2 1 fun x _ => Color.ofGray (if x = 0 then 0 else 255)
    let segment : Segment := .cut .new ⟨0, 0, 1, 1⟩ new.luma
    segment.CutFrom new.luma ∧
      old.ShowsAreaAt new segment.area ⟨1, 0⟩ ∧
      ∃ canvas, old.renderDifference old.luma new [segment] [⟨0, 0⟩] =
          .ok canvas ∧
        MatchPair.IsPaintedOn old old.luma new [segment] ⟨0, 0⟩ canvas ∧
        ∀ x y, ¬ MatchPair.Changes old old.luma new [segment] ⟨0, 0⟩ x y := by
  intro old new segment
  have cut : segment.CutFrom new.luma := ⟨by decide, rfl⟩
  have shows : old.ShowsAreaAt new segment.area ⟨1, 0⟩ := by decide
  have found : [segment][(MatchPair.mk 0 0).new]? = some segment := rfl
  have placed : old.luma.bestPlace? segment.crop = some ⟨1, 0⟩ := by
    decide +kernel
  rcases renderDifference_of_moved found cut shows with
    ⟨first, canvas, firstPlaced, _, _, rendered, painted, _, unchanged⟩
  obtain rfl := Option.some.inj (placed.symm.trans firstPlaced)
  exact ⟨cut, shows, canvas, rendered, painted, unchanged shows⟩

/--
The black cell of the new picture occurs in the old one, but a dark red cell
before it is equally bright.  The search ends there, and the cell is painted as
changed.
-/
theorem equally_bright_cell_is_changed :
    let old : Picture :=
      Raster.ofFn 2 1 fun x _ => ⟨if x = 0 then 1 else 0, 0, 0⟩
    let new : Picture := Raster.filled 1 1 ⟨0, 0, 0⟩
    let segment : Segment := .cut .new ⟨0, 0, 1, 1⟩ new.luma
    segment.CutFrom new.luma ∧
      old.ShowsAreaAt new segment.area ⟨1, 0⟩ ∧
      ∃ canvas, old.renderDifference old.luma new [segment] [⟨0, 0⟩] =
          .ok canvas ∧
        canvas.get? 0 0 = some Color.changed ∧
        canvas.get? 0 0 ≠ old.get? 0 0 ∧
        canvas.get? 0 0 ≠ some Color.outline := by
  intro old new segment
  have cut : segment.CutFrom new.luma := ⟨by decide, rfl⟩
  have found : [segment][(MatchPair.mk 0 0).new]? = some segment := rfl
  rcases exists_renderDifference_singleton found cut.fits.1 cut.fits.2.1 old
    old.luma new with ⟨canvas, rendered, painted⟩
  have changes :
      MatchPair.Changes old old.luma new [segment] ⟨0, 0⟩ 0 0 := by
    rw [← MatchPair.paint?_eq_changed_iff]
    decide +kernel
  have shown := painted.changed 0 0 changes
  refine ⟨cut, by decide, canvas, rendered, shown, ?_, ?_⟩
  · rw [shown]
    decide
  · rw [shown]
    decide

end Picture

end ScreenCompare
