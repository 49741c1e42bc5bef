import ScreenCompare.Canvas.TemplateSearch
import ScreenCompare.Segment

/-!
# Painting the outcome

Three kinds of canvas show the outcome of matching.  The difference canvas is
the old picture on which every matched segment is re-aligned, outlined, and the
cells whose old and new colors differ are painted.  The other two show the
picture of one side with the outlines of its unmatched segments, or of all its
segments.  Painting outside a canvas has no effect, and later paint covers
earlier paint.
-/

namespace ScreenCompare

namespace Color

/-- The color of outlines. -/
def outline : Color := { red := 0, green := 0, blue := 255 }

/-- The color of cells that have changed. -/
def changed : Color := { red := 255, green := 0, blue := 0 }

/-- The color of outlines around old segments without a partner. -/
def deleted : Color := { red := 255, green := 0, blue := 0 }

/-- The color of outlines around new segments without a partner. -/
def added : Color := { red := 0, green := 200, blue := 0 }

end Color

namespace Rect

/-- The whole numbers from `start` on. -/
def line (start : Int) (count : Nat) : List Int :=
  (List.range count).map fun step : Nat => start + step

/-- The cells of the outline of a rectangle. -/
def outlineCells (area : Rect) : List (Int × Int) :=
  ((line area.left area.width).flatMap fun x =>
      [(x, area.top), (x, area.bottom)]) ++
    (line area.top area.height).flatMap fun y =>
      [(area.left, y), (area.right, y)]

theorem mem_line {start number : Int} {count : Nat} :
    number ∈ line start count ↔ start ≤ number ∧ number < start + count := by
  simp only [line, List.mem_map, List.mem_range]
  constructor
  · rintro ⟨step, bound, rfl⟩
    omega
  · rintro ⟨low, high⟩
    exact ⟨(number - start).toNat, by omega, by omega⟩

/-- The listed cells of a rectangle are the ones on its outline. -/
theorem mem_outlineCells {area : Rect} {x y : Int}
    (columns : 0 < area.width) (rows : 0 < area.height) :
    (x, y) ∈ area.outlineCells ↔ area.OnOutline x y := by
  simp only [outlineCells, List.mem_append, List.mem_flatMap, mem_line,
    List.mem_cons, List.not_mem_nil, Prod.mk.injEq, or_false, OnOutline,
    Contains, right, bottom]
  constructor
  · rintro (⟨column, ⟨low, high⟩, (⟨rfl, rfl⟩ | ⟨rfl, rfl⟩)⟩ |
      ⟨row, ⟨low, high⟩, (⟨rfl, rfl⟩ | ⟨rfl, rfl⟩)⟩) <;> omega
  · rintro ⟨⟨left, right, top, bottom⟩, (atLeft | atRight | atTop | atBottom)⟩
    · exact Or.inr ⟨y, by omega, Or.inl ⟨atLeft, rfl⟩⟩
    · exact Or.inr ⟨y, by omega, Or.inr ⟨atRight, rfl⟩⟩
    · exact Or.inl ⟨x, by omega, Or.inl ⟨rfl, atTop⟩⟩
    · exact Or.inl ⟨x, by omega, Or.inr ⟨rfl, atBottom⟩⟩

end Rect

namespace Picture

/-- Paint one cell, unless it lies outside the canvas. -/
def paint (color : Color) (canvas : Picture) (cell : Int × Int) : Picture :=
  if 0 ≤ cell.1 ∧ 0 ≤ cell.2 then
    canvas.set cell.1.toNat cell.2.toNat color
  else canvas

/-- Paint the outline of a rectangle, as far as it lies on the canvas. -/
def drawOutline (canvas : Picture) (area : Rect) (color : Color) : Picture :=
  area.outlineCells.foldl (paint color) canvas

/-- Outline some segments. -/
def outlineAll (picture : Picture) (segments : List Segment) (color : Color) :
    Picture :=
  segments.foldl (fun canvas segment => canvas.drawOutline segment.area color)
    picture

/-- Outline the segments that have no partner. -/
def outlineUnmatched (picture : Picture) (segments : List Segment)
    (color : Color) : Picture :=
  picture.outlineAll (segments.filter fun segment => !segment.matched) color

end Picture

/--
A new segment and the place of the old picture where its content was found, if
it can lie there at all.
-/
structure Placement where
  segment : Segment
  place : Option Point

namespace Placement

/--
Look for the content of the new segment of a pair in the old gray picture.
-/
def ofPair (oldGray : GrayPicture) (segments : List Segment)
    (pair : MatchPair) : Except Misuse Placement :=
  match segments[pair.new]? with
  | none => .error (.noSuchSegment pair.new)
  | some segment =>
      .ok { segment, place := oldGray.bestPlace? segment.crop }

/--
The old cells at which old and new colors differ when an area of the new picture
is laid on a place of the old one.  Cells outside either picture do not differ.
-/
def changedCells (old new : Picture) (area : Rect) (place : Point) :
    List (Int × Int) :=
  (List.range area.height).flatMap fun down =>
    (List.range area.width).filterMap fun across =>
      let x := place.x + across
      let y := place.y + down
      match old.get? x y,
          new.get? (area.left.toNat + across) (area.top.toNat + down) with
      | some before, some after =>
          if before = after then none else some (x, y)
      | _, _ => none

/-- Outline a placed segment and paint the cells that have changed. -/
def paintOn (old new : Picture) (canvas : Picture) (placement : Placement) :
    Picture :=
  match placement.place with
  | none => canvas
  | some place =>
      let area := placement.segment.area
      let aligned : Rect := { area with left := place.x, top := place.y }
      (changedCells old new area place).foldl (Picture.paint Color.changed)
        (canvas.drawOutline aligned Color.outline)

end Placement

namespace Picture

/--
The old picture with the matched segments outlined and their changes painted.
-/
def renderDifference (old : Picture) (oldGray : GrayPicture) (new : Picture)
    (newSegments : List Segment) (pairs : List MatchPair) :
    Except Misuse Picture := do
  let placements ← pairs.mapM (Placement.ofPair oldGray newSegments)
  return placements.foldl (Placement.paintOn old new) old

end Picture

end ScreenCompare
