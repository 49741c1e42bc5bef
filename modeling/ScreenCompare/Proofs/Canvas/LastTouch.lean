import ScreenCompare.Proofs.Canvas.Difference

/-!
# The last pair that touches a cell decides its color

Every pair whose crop fits into the old picture is located, and neither its
outline nor its offsets reach beyond the pictures (`contains_offset`), so
nothing that it would paint is lost at an edge.  Pairs that do not fit paint
nothing.  Of the pairs that touch a cell one is the last (`exists_isLastTouch`),
and it decides what the difference canvas shows there
(`renderDifference_shows_last_touch`).
-/

namespace ScreenCompare

/--
The area of a segment lies on a picture, and the crop has the size of the area.
-/
structure Segment.LiesOn (segment : Segment) (picture : Picture) : Prop where
  fits : segment.area.FitsInside picture.width picture.height
  width_crop : segment.crop.width = segment.area.width
  height_crop : segment.crop.height = segment.area.height

theorem Segment.CutFrom.liesOn {segment : Segment} {picture : Picture}
    (cut : segment.CutFrom picture.luma) : segment.LiesOn picture where
  fits := cut.fits
  width_crop := cut.width_crop
  height_crop := cut.height_crop

namespace MatchPair

variable {old new : Picture} {oldGray : GrayPicture} {segments : List Segment}
  {pair : MatchPair} {x y : Nat}

/--
A pair touches a cell of the old picture if the cell lies on its outline or has
changed under it.
-/
def Touches (old : Picture) (oldGray : GrayPicture) (new : Picture)
    (segments : List Segment) (pair : MatchPair) (x y : Nat) : Prop :=
  pair.Outlines oldGray segments x y ∨
    pair.Changes old oldGray new segments x y

/-- Of some pairs, this one is the last to touch a cell. -/
def IsLastTouch (old : Picture) (oldGray : GrayPicture) (new : Picture)
    (segments : List Segment) (pairs : List MatchPair) (pair : MatchPair)
    (x y : Nat) : Prop :=
  ∃ earlier later, pairs = earlier ++ pair :: later ∧
    pair.Touches old oldGray new segments x y ∧
    ∀ other ∈ later, ¬ other.Touches old oldGray new segments x y

/-- If any pair touches a cell, one of them is the last. -/
theorem exists_isLastTouch {pairs : List MatchPair}
    (member : pair ∈ pairs)
    (touches : pair.Touches old oldGray new segments x y) :
    ∃ last, IsLastTouch old oldGray new segments pairs last x y := by
  induction pairs generalizing pair with
  | nil => cases member
  | cons first rest inductionHypothesis =>
      by_cases again : ∃ other ∈ rest,
          other.Touches old oldGray new segments x y
      · rcases again with ⟨other, otherMember, otherTouches⟩
        rcases inductionHypothesis otherMember otherTouches with
          ⟨last, earlier, later, rfl, split⟩
        exact ⟨last, first :: earlier, later, rfl, split⟩
      · rcases List.mem_cons.1 member with rfl | listed
        · exact ⟨pair, [], rest, rfl, touches, fun other otherMember
            otherTouches => again ⟨other, otherMember, otherTouches⟩⟩
        · exact absurd ⟨pair, listed, touches⟩ again

/-! ## Located pairs -/

/-- Only located pairs touch a cell. -/
theorem Touches.exists_place
    (touches : pair.Touches old oldGray new segments x y) :
    ∃ segment place, segments[pair.new]? = some segment ∧
      oldGray.bestPlace? segment.crop = some place := by
  rcases touches with outlines | ⟨_, _, compares, _⟩
  · rcases outlines with ⟨segment, place, found, placed, _⟩
    exact ⟨segment, place, found, placed⟩
  · rcases compares with ⟨segment, place, found, placed, _⟩
    exact ⟨segment, place, found, placed⟩

section Located

variable {segment : Segment} (sizes : oldGray.SameSize old)
  (lies : segment.LiesOn new)

include sizes lies

theorem canHold_iff_fits : oldGray.CanHold segment.crop ↔
    segment.area.width ≤ old.width ∧ segment.area.height ≤ old.height := by
  have cells : ¬ segment.crop.IsEmpty := by
    have columns := lies.fits.1
    have rows := lies.fits.2.1
    unfold Raster.IsEmpty
    rw [lies.width_crop, lies.height_crop]
    omega
  rw [GrayPicture.CanHold, lies.width_crop, lies.height_crop, sizes.1, sizes.2]
  exact and_iff_right cells

/-- A pair whose area does not fit touches nothing. -/
theorem not_touches_of_larger (found : segments[pair.new]? = some segment)
    (larger : old.width < segment.area.width ∨
      old.height < segment.area.height) :
    ¬ pair.Touches old oldGray new segments x y := by
  intro touches
  rcases touches.exists_place with ⟨other, place, otherFound, placed⟩
  obtain rfl := Option.some.inj (found.symm.trans otherFound)
  have fits := (canHold_iff_fits sizes lies).1
    (GrayPicture.canHold_of_bestPlace? placed)
  omega

variable {place : Point}
  (placed : oldGray.bestPlace? segment.crop = some place)

include placed

/-- The offsets of a located area lie on both pictures. -/
theorem contains_offset {across down : Nat}
    (columnInside : across < segment.area.width)
    (rowInside : down < segment.area.height) :
    old.Contains (place.x + across) (place.y + down) ∧
      new.Contains (segment.area.left.toNat + across)
        (segment.area.top.toNat + down) := by
  have room := GrayPicture.hasRoomAt_of_bestPlace? placed
  have fits := lies.fits
  rw [GrayPicture.HasRoomAt, lies.width_crop, lies.height_crop, sizes.1,
    sizes.2] at room
  simp only [Rect.FitsInside, Rect.right, Rect.bottom] at fits
  unfold Raster.Contains
  omega

theorem contains_of_onOutline
    (onOutline : (segment.area.movedTo place).OnOutline x y) :
    old.Contains x y := by
  have inside := onOutline.1
  simp only [Rect.Contains, Rect.right, Rect.bottom, Rect.movedTo] at inside
  have offset := contains_offset sizes lies placed
    (show x - place.x < segment.area.width by omega)
    (show y - place.y < segment.area.height by omega)
  rw [Nat.add_sub_cancel' (by omega), Nat.add_sub_cancel' (by omega)] at offset
  exact offset.1

end Located

/-! ## Colors -/

section Colors

variable (sizes : oldGray.SameSize old)
  (inside : ∀ segment ∈ segments, segment.LiesOn new)

include inside

theorem hasCells_of_liesOn (pair : MatchPair) (segment : Segment)
    (found : segments[pair.new]? = some segment) :
    0 < segment.area.width ∧ 0 < segment.area.height :=
  have fits := (inside segment (List.mem_of_getElem? found)).fits
  ⟨fits.1, fits.2.1⟩

theorem paint?_of_touches
    (touches : pair.Touches old oldGray new segments x y) :
    (pair.Changes old oldGray new segments x y →
      pair.paint? old oldGray new segments x y = some Color.changed) ∧
    (¬ pair.Changes old oldGray new segments x y →
      pair.paint? old oldGray new segments x y = some Color.outline) := by
  refine ⟨paint?_eq_changed_iff.2, ?_⟩
  intro unchanged
  apply (paint?_eq_outline_iff (hasCells_of_liesOn inside pair)).2
  exact ⟨touches.resolve_right unchanged, unchanged⟩

theorem paint?_eq_none_iff :
    pair.paint? old oldGray new segments x y = none ↔
      ¬ pair.Touches old oldGray new segments x y := by
  constructor
  · intro missing touches
    have paints := paint?_of_touches inside touches
    rw [missing] at paints
    by_cases changes : pair.Changes old oldGray new segments x y
    · cases paints.1 changes
    · cases paints.2 changes
  · intro untouched
    apply Option.eq_none_iff_forall_not_mem.2
    intro color painted
    apply untouched
    rcases paint?_eq_changed_or_outline painted with rfl | rfl
    · exact Or.inr (paint?_eq_changed_iff.1 painted)
    · exact Or.inl ((paint?_eq_outline_iff
        (hasCells_of_liesOn inside pair)).1 painted).1

theorem lastPaint?_of_untouched {pairs : List MatchPair}
    (untouched : ∀ pair ∈ pairs, ¬ pair.Touches old oldGray new segments x y) :
    Placement.lastPaint? (pairs.map (paint? old oldGray new segments x y)) =
      none := by
  rw [Placement.lastPaint?_eq_none_iff, List.forall_mem_map]
  exact fun pair member => (paint?_eq_none_iff inside).2 (untouched pair member)

/-- Only the last pair that touches a cell matters there. -/
theorem lastPaint?_of_isLastTouch {pairs : List MatchPair}
    (last : IsLastTouch old oldGray new segments pairs pair x y) :
    Placement.lastPaint? (pairs.map (paint? old oldGray new segments x y)) =
      pair.paint? old oldGray new segments x y := by
  rcases last with ⟨earlier, later, rfl, touches, untouched⟩
  rw [List.map_append, List.map_cons, ← List.singleton_append,
    Placement.lastPaint?_append, Placement.lastPaint?_append,
    Placement.lastPaint?_singleton, lastPaint?_of_untouched inside untouched,
    Option.none_or]
  cases painted : pair.paint? old oldGray new segments x y with
  | none => exact absurd touches ((paint?_eq_none_iff inside).1 painted)
  | some color => rfl

include sizes

/-- A cell that is touched lies on the old picture. -/
theorem Touches.exists_color
    (touches : pair.Touches old oldGray new segments x y) :
    ∃ before, old.get? x y = some before := by
  rcases touches with ⟨segment, place, found, placed, onOutline⟩ | changes
  · have lies := inside segment (List.mem_of_getElem? found)
    exact Raster.get?_of_contains
      (contains_of_onOutline sizes lies placed onOutline)
  · exact changes.exists_color

end Colors

end MatchPair

namespace Picture

/--
The difference canvas has the size of the old picture, and the last pair that
touches a cell decides its color: that of changes if the cell has changed under
the pair, and that of outlines if it only lies on its outline.  Cells that no
pair touches show the old picture, and of the pairs that touch a cell one is the
last.  A pair whose area does not fit touches nothing; any other is located, and
none of its offsets lies outside a picture.  No canvas is rendered only if a pair
names no segment.
-/
theorem renderDifference_shows_last_touch {old new : Picture}
    {oldGray : GrayPicture} {segments : List Segment} {pairs : List MatchPair}
    (sizes : oldGray.SameSize old)
    (inside : ∀ segment ∈ segments, segment.LiesOn new) :
    match old.renderDifference oldGray new segments pairs with
    | .error _ => ∃ pair ∈ pairs, segments.length ≤ pair.new
    | .ok canvas =>
        canvas.SameSize old ∧
        (∀ x y,
          (∀ pair,
            MatchPair.IsLastTouch old oldGray new segments pairs pair x y →
              (pair.Changes old oldGray new segments x y →
                canvas.get? x y = some Color.changed) ∧
              (¬ pair.Changes old oldGray new segments x y →
                canvas.get? x y = some Color.outline)) ∧
          ((∀ pair ∈ pairs, ¬ pair.Touches old oldGray new segments x y) →
            canvas.get? x y = old.get? x y) ∧
          ∀ pair ∈ pairs, pair.Touches old oldGray new segments x y →
            ∃ last,
              MatchPair.IsLastTouch old oldGray new segments pairs last x y) ∧
        ∀ (pair : MatchPair) (segment : Segment),
          segments[pair.new]? = some segment →
            (old.width < segment.area.width ∨
                old.height < segment.area.height →
              ∀ x y, ¬ pair.Touches old oldGray new segments x y) ∧
            (segment.area.width ≤ old.width ∧
                segment.area.height ≤ old.height →
              ∃ place, oldGray.bestPlace? segment.crop = some place ∧
                ∀ across < segment.area.width, ∀ down < segment.area.height,
                  old.Contains (place.x + across) (place.y + down) ∧
                    new.Contains (segment.area.left.toNat + across)
                      (segment.area.top.toNat + down)) := by
  by_cases known : ∀ pair ∈ pairs, pair.new < segments.length
  · rcases exists_renderDifference known old oldGray new with
      ⟨canvas, rendered, sameSize, colors⟩
    rw [rendered]
    refine ⟨sameSize, ?_, ?_⟩
    · intro x y
      refine ⟨?_, ?_, fun pair => MatchPair.exists_isLastTouch⟩
      · intro pair last
        have ⟨_, _, _, touches, _⟩ := last
        rcases touches.exists_color sizes inside with ⟨before, oldFound⟩
        have paints := MatchPair.paint?_of_touches inside touches
        rw [colors, oldFound, MatchPair.lastPaint?_of_isLastTouch inside last]
        constructor
        · intro changes
          rw [paints.1 changes]
          rfl
        · intro unchanged
          rw [paints.2 unchanged]
          rfl
      · intro untouched
        rw [colors, MatchPair.lastPaint?_of_untouched inside untouched]
        exact Placement.map_getD_none _
    · intro pair segment found
      have lies := inside segment (List.mem_of_getElem? found)
      constructor
      · intro larger x y
        exact MatchPair.not_touches_of_larger sizes lies found larger
      · intro fits
        rcases GrayPicture.exists_bestPlace?
          ((MatchPair.canHold_iff_fits sizes lies).2 fits) with ⟨place, placed⟩
        exact ⟨place, placed, fun across columnInside down rowInside =>
          MatchPair.contains_offset sizes lies placed columnInside rowInside⟩
  · cases rendered : old.renderDifference oldGray new segments pairs with
    | error misuse =>
        simpa only [Classical.not_forall, Nat.not_lt, exists_prop] using known
    | ok canvas => exact absurd (known_of_renderDifference rendered) known

/--
Four white cells, and six of which the first is black.  Three pairs are painted:
a white cell, which leaves an outline on the first old cell; the black cell, for
which the search finds no better place; and five cells, which do not fit.  The
first old cell shows the change, the second one stays white.
-/
theorem second_of_three_pairs_touches_last :
    let old : Picture := Raster.filled 4 1 (Color.ofGray 255)
    let new : Picture :=
      Raster.ofFn 6 1 fun x _ => Color.ofGray (if x = 0 then 0 else 255)
    let segments : List Segment :=
      [.cut .new ⟨0, 0, 1, 1⟩ new.luma, .cut .new ⟨1, 0, 1, 1⟩ new.luma,
        .cut .new ⟨1, 0, 5, 1⟩ new.luma]
    old.luma.SameSize old ∧ (∀ segment ∈ segments, segment.LiesOn new) ∧
      ∃ canvas, old.renderDifference old.luma new segments
          [⟨1, 1⟩, ⟨0, 0⟩, ⟨2, 2⟩] = .ok canvas ∧
        canvas.get? 0 0 = some Color.changed ∧
        canvas.get? 1 0 = old.get? 1 0 := by
  intro old new segments
  have sizes : old.luma.SameSize old := ⟨rfl, rfl⟩
  have inside : ∀ segment ∈ segments, segment.LiesOn new := by
    intro segment member
    simp only [segments, List.mem_cons, List.not_mem_nil, or_false] at member
    rcases member with rfl | rfl | rfl
    all_goals exact Segment.CutFrom.liesOn ⟨by decide, rfl⟩
  have known : ∀ pair ∈ [MatchPair.mk 1 1, ⟨0, 0⟩, ⟨2, 2⟩],
      pair.new < segments.length := by
    decide
  rcases exists_renderDifference known old old.luma new with
    ⟨canvas, rendered, _⟩
  have shown := @renderDifference_shows_last_touch old new old.luma segments
    [⟨1, 1⟩, ⟨0, 0⟩, ⟨2, 2⟩] sizes inside
  rw [rendered] at shown
  have changes : MatchPair.Changes old old.luma new segments ⟨0, 0⟩ 0 0 := by
    rw [← MatchPair.paint?_eq_changed_iff]
    decide +kernel
  have tooWide := (shown.2.2 ⟨2, 2⟩ _ rfl).1 (.inl (by decide))
  refine ⟨sizes, inside, canvas, rendered, ?_, ?_⟩
  · refine ((shown.2.1 0 0).1 ⟨0, 0⟩ ?_).1 changes
    exact ⟨[⟨1, 1⟩], [⟨2, 2⟩], rfl, .inr changes,
      List.forall_mem_singleton.2 (tooWide 0 0)⟩
  · apply (shown.2.1 1 0).2.1
    have untouched : ∀ pair ∈ [MatchPair.mk 1 1, ⟨0, 0⟩, ⟨2, 2⟩],
        pair.paint? old old.luma new segments 1 0 = none := by
      decide +kernel
    exact fun pair member =>
      (MatchPair.paint?_eq_none_iff inside).1 (untouched pair member)

end Picture

end ScreenCompare
