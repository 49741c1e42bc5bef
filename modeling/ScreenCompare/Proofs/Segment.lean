import Mathlib.Data.Int.Interval
import ScreenCompare.Proofs.LabelMap.Border
import ScreenCompare.Proofs.LabelMap.Harvest
import ScreenCompare.Proofs.Segmentation
import ScreenCompare.Segment

/-!
# Segments lie inside the frame

The outermost cells of a framed map belong to no region.  So the components of
such a map, and with them the rectangles of its regions, stay one cell away from
the edges; and since components do not overlap, the sizes of all regions add up
to at most the number of cells inside the frame (`regions_frame`).

The regions of a picture are those of a framed map of its size.  So each of them
can be cut out of the picture, and detecting segments never fails
(`detect_stays_inside_frame`).
-/

namespace ScreenCompare

namespace Rect

/-- All cells of a grid of the given size that are not outermost. -/
def inner (width height : Nat) : Rect where
  left := 1
  top := 1
  width := width - 2
  height := height - 2

/--
The rectangle lies on a grid of the given size and stays away from its outermost
cells.
-/
structure IsFramed (area : Rect) (width height : Nat) : Prop where
  left : 1 ≤ area.left
  top : 1 ≤ area.top
  right : area.right ≤ (width : Int) - 2
  bottom : area.bottom ≤ (height : Int) - 2

/-- A rectangle contains at most as many cells as its width times its height. -/
theorem encard_le {area : Rect} {cells : Set Point}
    (contains : ∀ cell ∈ cells, area.Contains cell.x cell.y) :
    cells.encard ≤ (area.width * area.height : Nat) := by
  let grid : Finset (Int × Int) :=
    Finset.Icc area.left area.right ×ˢ Finset.Icc area.top area.bottom
  have counted : grid.card = area.width * area.height := by
    rw [Finset.card_product, Int.card_Icc, Int.card_Icc, right, bottom]
    congr 1 <;> omega
  rw [← counted, ← Set.encard_coe_eq_coe_finsetCard]
  apply Set.encard_le_encard_of_injOn
    (f := fun cell : Point => ((cell.x : Int), (cell.y : Int)))
  · intro cell member
    have inside := contains cell member
    simp only [grid, Finset.coe_product, Finset.coe_Icc, Set.mem_prod,
      Set.mem_Icc]
    exact ⟨⟨inside.1, inside.2.1⟩, inside.2.2⟩
  · intro first _ second _ same
    rw [Prod.mk.injEq, Nat.cast_inj, Nat.cast_inj] at same
    cases first
    cases second
    simp_all

/-- The smallest rectangle around some cells inside the frame lies inside it. -/
theorem IsTight.isFramed {area : Rect} {cells : Set Point} {width height : Nat}
    (tight : area.IsTight cells)
    (framed : ∀ cell ∈ cells, (inner width height).Contains cell.x cell.y) :
    area.IsFramed width height := by
  obtain ⟨_, leftMember, atLeft⟩ := tight.left
  obtain ⟨_, rightMember, atRight⟩ := tight.right
  obtain ⟨_, topMember, atTop⟩ := tight.top
  obtain ⟨_, bottomMember, atBottom⟩ := tight.bottom
  have leftInside := framed _ leftMember
  have rightInside := framed _ rightMember
  have topInside := framed _ topMember
  have bottomInside := framed _ bottomMember
  simp only [Contains, inner, Rect.right, Rect.bottom] at *
  constructor
  · omega
  · omega
  · rw [Rect.right]
    omega
  · rw [Rect.bottom]
    omega

theorem IsFramed.fitsInside {area : Rect} {width height : Nat}
    (framed : area.IsFramed width height) (columns : 0 < area.width)
    (rows : 0 < area.height) : area.FitsInside width height := by
  have left := framed.left
  have top := framed.top
  have right := framed.right
  have bottom := framed.bottom
  exact ⟨columns, rows, by omega, by omega, by omega, by omega⟩

end Rect

namespace LabelMap

variable {labels : LabelMap}

/-- The outermost cells of a framed map carry no label above 1. -/
theorem inner_contains_of_isForeground {point : Point}
    (foreground : labels.frame.IsForeground point) :
    (Rect.inner labels.width labels.height).Contains point.x point.y := by
  obtain ⟨label, above, found⟩ := foreground
  rw [get?_frame] at found
  split at found
  · obtain ⟨_, _, isBoundary⟩ := Option.map_eq_some_iff.1 found
    rw [boundary] at isBoundary
    omega
  · next inside =>
      have contained := Raster.contains_of_get? found
      simp only [Raster.Contains, Rect.Contains, Rect.inner, Rect.right,
        Rect.bottom] at contained ⊢
      omega

/-- The cells of several components. -/
def cellsOf (labels : LabelMap) (heads : List Point) : Set Point :=
  { cell | ∃ head ∈ heads, cell ∈ labels.component head }

/-- No two heads share a cell of their components. -/
theorem not_mem_cellsOf {head cell : Point} {heads : List Point}
    (areHeads : ∀ other ∈ heads, labels.IsHead other)
    (before : ∀ other ∈ heads, head.Before other)
    (member : cell ∈ labels.component head) : cell ∉ labels.cellsOf heads := by
  rintro ⟨other, otherListed, otherMember⟩
  have connected : head ∈ labels.component other :=
    otherMember.trans (mem_component_symm member)
  exact (areHeads other otherListed).2 head connected
    (before other otherListed)

/--
The sizes of regions that describe the components of distinct heads add up to
the number of their cells.
-/
theorem encard_cellsOf {heads : List Point} {regions : List Region}
    (described : List.Forall₂
      (fun head region => region.Describes (labels.component head))
      heads regions)
    (ordered : heads.Pairwise Point.Before)
    (areHeads : ∀ head ∈ heads, labels.IsHead head) :
    (labels.cellsOf heads).encard = (regions.map Region.size).sum := by
  induction described with
  | nil => simp [cellsOf]
  | @cons head region heads regions describes _ inductionHypothesis =>
      rw [List.pairwise_cons] at ordered
      rw [List.forall_mem_cons] at areHeads
      have split : labels.cellsOf (head :: heads) =
          labels.component head ∪ labels.cellsOf heads := by
        ext cell
        simp [cellsOf]
      have apart : Disjoint (labels.component head) (labels.cellsOf heads) :=
        Set.disjoint_left.2 fun _ => not_mem_cellsOf areHeads.2 ordered.1
      rw [split, Set.encard_union_eq apart, describes.size,
        inductionHypothesis ordered.2 areHeads.2, List.map_cons, List.sum_cons,
        Nat.cast_add]

/--
Each region of a framed map lies inside the frame and has at least two cells, but
no more than its rectangle; and all regions together have no more than there are
cells inside the frame.
-/
theorem regions_frame (labels : LabelMap) :
    (∀ region ∈ labels.frame.regions,
      region.bounds.IsFramed labels.width labels.height ∧
        2 ≤ region.size ∧
          region.size ≤ region.bounds.width * region.bounds.height) ∧
      (labels.frame.regions.map Region.size).sum ≤
        (labels.width - 2) * (labels.height - 2) := by
  have described := labels.frame.harvest_gathers.regions
  have inside {head cell : Point} (isHead : labels.frame.IsHead head)
      (member : cell ∈ labels.frame.component head) :
      (Rect.inner labels.width labels.height).Contains cell.x cell.y :=
    inner_contains_of_isForeground (isForeground_of_mem isHead.1 member)
  have areHeads : ∀ head ∈ labels.frame.headsAmong labels.frame.points,
      labels.frame.IsHead head :=
    fun head listed => (mem_headsAmong.1 listed).2.1
  constructor
  · intro region member
    obtain ⟨place, bound, rfl⟩ := List.getElem_of_mem member
    obtain ⟨lengths, describes⟩ := List.forall₂_iff_get.1 described
    have listed := List.get_mem (labels.frame.headsAmong labels.frame.points)
      ⟨place, lengths ▸ bound⟩
    have describes := describes place (lengths ▸ bound) bound
    refine ⟨describes.bounds.isFramed fun cell => inside (areHeads _ listed),
      ?_, ?_⟩
    · have several := (mem_headsAmong.1 listed).2.2
      rw [← Set.one_lt_encard_iff_nontrivial, describes.size] at several
      exact Nat.one_lt_cast.1 several
    · have bound := Rect.encard_le describes.bounds.contains
      rw [describes.size] at bound
      exact Nat.cast_le.1 bound
  · have total := encard_cellsOf described
      (labels.frame.pairwise_points.filter _) areHeads
    have bound : (labels.frame.cellsOf
        (labels.frame.headsAmong labels.frame.points)).encard ≤ _ :=
      @Rect.encard_le (Rect.inner labels.width labels.height) _ (by
        rintro cell ⟨head, listed, member⟩
        exact inside (areHeads head listed) member)
    rw [total] at bound
    exact Nat.cast_le.1 bound

end LabelMap

namespace Segment

/--
A segment lies on a gray picture, and its crop is its area of that picture.
-/
structure CutFrom (segment : Segment) (gray : GrayPicture) : Prop where
  fits : segment.area.FitsInside gray.width gray.height
  crop_eq : segment.crop =
    gray.crop segment.area.left.toNat segment.area.top.toNat
      segment.area.width segment.area.height 0

/-- The segment over an area of a gray picture, not yet described or matched. -/
def cut (side : Side) (area : Rect) (gray : GrayPicture) : Segment where
  side := side
  area := area
  crop := gray.crop area.left.toNat area.top.toNat area.width area.height 0
  descriptor := none
  matched := false

theorem ofArea_eq_ok_iff {side : Side} {area : Rect} {gray : GrayPicture}
    {segment : Segment} :
    ofArea side area gray = .ok segment ↔
      area.FitsInside gray.width gray.height ∧ cut side area gray = segment := by
  rw [ofArea]
  split
  · next fits => simp only [fits, true_and, Except.ok.injEq, cut]
  · next outside => exact iff_of_false nofun fun both => outside both.1

theorem CutFrom.width_crop {segment : Segment} {gray : GrayPicture}
    (cutFrom : segment.CutFrom gray) :
    segment.crop.width = segment.area.width := by
  rw [cutFrom.crop_eq]
  rfl

theorem CutFrom.height_crop {segment : Segment} {gray : GrayPicture}
    (cutFrom : segment.CutFrom gray) :
    segment.crop.height = segment.area.height := by
  rw [cutFrom.crop_eq]
  rfl

/-- The crop of a segment consists of cells of the picture it was cut from. -/
theorem CutFrom.get?_crop {segment : Segment} {gray : GrayPicture}
    (cutFrom : segment.CutFrom gray) {x y : Nat}
    (column : x < segment.area.width) (row : y < segment.area.height) :
    gray.Contains (segment.area.left.toNat + x) (segment.area.top.toNat + y) ∧
      segment.crop.get? x y = gray.get? (segment.area.left.toNat + x)
        (segment.area.top.toNat + y) := by
  obtain ⟨_, _, left, top, right, bottom⟩ := cutFrom.fits
  rw [Rect.right] at right
  rw [Rect.bottom] at bottom
  have contained : gray.Contains (segment.area.left.toNat + x)
      (segment.area.top.toNat + y) :=
    ⟨by omega, by omega⟩
  obtain ⟨brightness, found⟩ := Raster.get?_of_contains contained
  rw [cutFrom.crop_eq, Raster.get?_crop, if_pos ⟨column, row⟩, found]
  exact ⟨contained, rfl⟩

/-- Segments are cut from all areas that lie on the picture. -/
theorem mapM_ofArea {side : Side} {gray : GrayPicture} {regions : List Region}
    (fits : ∀ region ∈ regions,
      region.bounds.FitsInside gray.width gray.height) :
    regions.mapM (fun region => ofArea side region.bounds gray) =
      .ok (regions.map fun region => cut side region.bounds gray) := by
  induction regions with
  | nil => rfl
  | cons region regions inductionHypothesis =>
      rw [List.forall_mem_cons] at fits
      rw [List.mapM_cons, ofArea_eq_ok_iff.2 ⟨fits.1, rfl⟩,
        inductionHypothesis fits.2]
      rfl

/--
Detecting the segments of a picture with a gray version of its size succeeds, for
every threshold.  There is one segment for each region, over the rectangle of the
region and cut from the gray version; all rectangles lie inside the frame, each
region has at least two cells and no more than its rectangle, and all regions
together have no more cells than there are inside the frame.  On the way, the
parent of a ridge border is an earlier one, so that its label is known.
-/
theorem detect_stays_inside_frame (side : Side) (picture : Picture)
    (gray : GrayPicture) (threshold : UInt8) (fits : picture.SameSize gray) :
    (∀ (index parent : Nat) (border : Border),
      (Border.all (gray.ridges threshold))[index]? = some border →
        border.parent = some parent → parent < index) ∧
      ∃ regions segments,
        picture.regionsOver gray threshold = .ok regions ∧
        detect side picture gray threshold = .ok segments ∧
        segments.map Segment.area = regions.map Region.bounds ∧
        (∀ segment ∈ segments, segment.CutFrom gray ∧
          ∀ x y, x < segment.area.width → y < segment.area.height →
            gray.Contains (segment.area.left.toNat + x)
                (segment.area.top.toNat + y) ∧
              segment.crop.get? x y = gray.get? (segment.area.left.toNat + x)
                (segment.area.top.toNat + y)) ∧
        (∀ region ∈ regions, region.bounds.IsFramed gray.width gray.height ∧
          2 ≤ region.size ∧
            region.size ≤ region.bounds.width * region.bounds.height) ∧
        (regions.map Region.size).sum ≤
          (gray.width - 2) * (gray.height - 2) := by
  let labels := (LabelMap.ofMask (gray.ridges threshold)).raise 1
  have sizes : labels.SameSize gray :=
    LabelMap.sameSize_raise_ofMask gray threshold
  have found : picture.regionsOver gray threshold = .ok labels.frame.regions :=
    Picture.regionsOver_eq_ok threshold fits
  obtain ⟨framed, total⟩ := labels.regions_frame
  rw [sizes.1, sizes.2] at framed total
  have inside : ∀ region ∈ labels.frame.regions,
      region.bounds.FitsInside gray.width gray.height := by
    intro region member
    obtain ⟨within, several, bounded⟩ := framed region member
    have positive : 0 < region.bounds.width * region.bounds.height := by omega
    exact within.fitsInside (Nat.pos_of_mul_pos_right positive)
      (Nat.pos_of_mul_pos_left positive)
  refine ⟨fun _ _ _ found itsParent => Border.parent_lt found itsParent,
    labels.frame.regions,
    labels.frame.regions.map fun region => cut side region.bounds gray, found,
    ?_, ?_, ?_, framed, total⟩
  · rw [detect, found]
    exact mapM_ofArea inside
  · rw [List.map_map]
    rfl
  · intro segment member
    obtain ⟨region, listed, rfl⟩ := List.mem_map.1 member
    have cutFrom : (cut side region.bounds gray).CutFrom gray :=
      ⟨inside region listed, rfl⟩
    exact ⟨cutFrom, fun _ _ column row => cutFrom.get?_crop column row⟩

/--
A bright edge strip, which touches three edges of the picture, yields segments
inside the only row that is not outermost.
-/
theorem edge_strip_stays_inside_frame :
    let gray : GrayPicture :=
      Raster.ofFn 20 3 fun x _ => if x < 16 then 0 else 255
    let picture : Picture := gray.map Color.ofGray
    picture.SameSize gray ∧ ∃ regions segments,
      picture.regionsOver gray 200 = .ok regions ∧
        detect .old picture gray 200 = .ok segments ∧
        segments.map Segment.area = regions.map Region.bounds ∧
        (∀ region ∈ regions, region.bounds.IsFramed 20 3) ∧
        (regions.map Region.size).sum ≤ 18 := by
  intro gray picture
  have fits : picture.SameSize gray := ⟨rfl, rfl⟩
  obtain ⟨_, regions, segments, found, detected, areas, _, framed, total⟩ :=
    detect_stays_inside_frame .old picture gray 200 fits
  exact ⟨fits, regions, segments, found, detected, areas,
    fun region member => (framed region member).1, total⟩

end Segment

end ScreenCompare
