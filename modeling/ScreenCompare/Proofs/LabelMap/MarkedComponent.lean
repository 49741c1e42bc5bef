import ScreenCompare.Proofs.LabelMap.BorderLabels
import ScreenCompare.Proofs.LabelMap.Marker

/-!
# Which components are marked

All borders get positive labels.  Painting one labels its cells and changes only
rows between its first and its last one, so every labelled cell has a border that
passes through its row.

A walk along a row from a set cell to a clear one ends beside the clear cell, on
a border.  So a component gets a marker as soon as one of its rows has a clear
cell; and if none has, each of its rows consists of set cells only, and no border
passes through any (`component_marked_iff`).  A band of set cells from one edge
to the other is such a component (`band_is_not_marked`).
-/

namespace ScreenCompare

/-! ## Painted rows -/

namespace LabelMap

/--
A closed chain of cells passes through a row or leaves it between two of its
cells.
-/
def Spans (chain : List Point) (row : Nat) : Prop :=
  ∃ above ∈ chain, ∃ below ∈ chain, above.y ≤ row ∧ row ≤ below.y

variable {label : Int} {border : Border}

/-- Painting a border leaves all rows alone that lie above or below it. -/
theorem get?_paintFilled_of_not_spans (labels : LabelMap) {x y : Nat}
    (outside : ¬ Spans border.points y) :
    (labels.paintFilled border.sites label).get? x y = labels.get? x y := by
  apply (paintsOn_paintFilled labels border.sites label).kept { x, y }
  have isCell {site : Site} (member : site ∈ border.sites) :
      ∃ point ∈ border.points, (point.y : Int) = site.y := by
    obtain ⟨point, isPoint, rfl⟩ := List.mem_map.1 member
    exact ⟨point, isPoint, rfl⟩
  rintro (member | ⟨span, isSpan, _⟩)
  · obtain ⟨point, isPoint, row⟩ := isCell member
    rw [Point.y_site, Int.natCast_inj] at row
    exact outside ⟨point, isPoint, point, isPoint, row.le, row.ge⟩
  · obtain ⟨_, aboveMember, _, belowMember, between⟩ :=
      exists_mem_of_mem_crossings (mem_spans isSpan).1
    obtain ⟨above, isAbove, aboveRow⟩ := isCell aboveMember
    obtain ⟨below, isBelow, belowRow⟩ := isCell belowMember
    rw [← aboveRow, ← belowRow, Point.y_site, Int.ofNat_le, Int.ofNat_le]
      at between
    exact outside ⟨above, isAbove, below, isBelow, between⟩

/-- Painting a border labels its cells. -/
theorem get?_paintFilled_of_mem {labels : LabelMap} {point : Point}
    (member : point ∈ border.points)
    (inside : labels.Contains point.x point.y) :
    (labels.paintFilled border.sites label).get? point.x point.y =
      some label :=
  (paintsOn_paintFilled labels border.sites label).painted point
    (.inl (List.mem_map_of_mem member)) inside

/-! ## Labelled cells -/

variable {mask : GrayPicture}

/-- The markers after some borders have been painted. -/
def ofBorders (mask : GrayPicture) (count : Nat) : LabelMap :=
  (((Border.all mask).zip (Border.labels (Border.all mask))).take count).foldl
    (fun labels (border, label) => labels.paintFilled border.sites label)
    (blank mask.width mask.height)

theorem ofBorders_zero (mask : GrayPicture) :
    ofBorders mask 0 = blank mask.width mask.height :=
  rfl

/-- One more border is painted with its label. -/
theorem ofBorders_succ {border : Border} {index label : Nat}
    (found : (Border.all mask)[index]? = some border)
    (itsLabel : (Border.labels (Border.all mask))[index]? = some label) :
    ofBorders mask (index + 1) =
      (ofBorders mask index).paintFilled border.sites label := by
  have pair :
      ((Border.all mask).zip (Border.labels (Border.all mask)))[index]? =
        some (border, label) :=
    List.getElem?_zip_eq_some.2 ⟨found, itsLabel⟩
  rw [ofBorders, List.take_add_one, pair, Option.toList_some,
    List.foldl_concat]
  rfl

theorem ofBorders_of_length_le {count : Nat}
    (all : (Border.all mask).length ≤ count) :
    ofBorders mask count = ofMask mask := by
  rw [ofBorders, List.take_of_length_le, ofMask]
  rw [List.length_zip]
  exact Nat.le_trans (Nat.min_le_left ..) all

theorem sameSize_ofBorders (mask : GrayPicture) (count : Nat) :
    (ofBorders mask count).SameSize mask :=
  List.foldlRecOn (motive := fun labels : LabelMap => labels.SameSize mask) _ _
    ⟨rfl, rfl⟩ fun labels sameSize pair _ =>
      (paintsOn_paintFilled labels pair.1.sites pair.2).sameSize.trans sameSize

/-- The cells of a border have its label right after it has been painted. -/
theorem get?_ofBorders_succ {border : Border} {point : Point}
    {index label : Nat} (found : (Border.all mask)[index]? = some border)
    (itsLabel : (Border.labels (Border.all mask))[index]? = some label)
    (member : point ∈ border.points) :
    (ofBorders mask (index + 1)).get? point.x point.y = some (label : Int) := by
  have sizes := sameSize_ofBorders mask index
  have inside :=
    Border.contains_of_mem_points (List.mem_of_getElem? found) member
  rw [Raster.Contains, ← sizes.1, ← sizes.2] at inside
  rw [ofBorders_succ found itsLabel]
  exact get?_paintFilled_of_mem member inside

/-- A cell with a positive label has one after the next border too. -/
theorem exists_label_succ {x y count : Nat}
    (earlier : ∃ label, 0 < label ∧
      (ofBorders mask count).get? x y = some label) :
    ∃ label, 0 < label ∧
      (ofBorders mask (count + 1)).get? x y = some label := by
  cases found : (Border.all mask)[count]? with
  | none =>
      have all : (Border.all mask).length ≤ count :=
        List.getElem?_eq_none_iff.1 found
      rw [ofBorders_of_length_le all] at earlier
      rw [ofBorders_of_length_le (Nat.le_succ_of_le all)]
      exact earlier
  | some border =>
      obtain ⟨next, itsLabel, positive⟩ := Border.exists_label found
      obtain ⟨label, labelPositive, labelled⟩ := earlier
      rw [ofBorders_succ found itsLabel]
      rcases (paintsOn_paintFilled (ofBorders mask count) border.sites
          next).label_or_same x y with kept | relabelled
      · exact ⟨label, labelPositive, kept.trans labelled⟩
      · exact ⟨next, Int.natCast_pos.2 positive, relabelled⟩

/--
Once a border has been painted, its cells have positive labels, whatever is
painted later.
-/
theorem exists_label_of_painted {border : Border} {point : Point}
    {index count : Nat} (found : (Border.all mask)[index]? = some border)
    (painted : index < count) (member : point ∈ border.points) :
    ∃ label, 0 < label ∧
      (ofBorders mask count).get? point.x point.y = some label := by
  induction count, painted using Nat.le_induction with
  | base =>
      obtain ⟨label, itsLabel, positive⟩ := Border.exists_label found
      exact ⟨label, Int.natCast_pos.2 positive,
        get?_ofBorders_succ found itsLabel member⟩
  | succ count _ inductionHypothesis =>
      exact exists_label_succ inductionHypothesis

/-- Every cell of a border ends up with a positive label. -/
theorem exists_label_of_mem_border {border : Border} {point : Point}
    (listed : border ∈ Border.all mask) (member : point ∈ border.points) :
    ∃ label, 0 < label ∧
      (ofMask mask).get? point.x point.y = some label := by
  obtain ⟨index, found⟩ := List.mem_iff_getElem?.1 listed
  rw [← ofBorders_of_length_le (Nat.le_refl _)]
  exact exists_label_of_painted found (List.getElem?_eq_some_iff.1 found).1
    member

/-- A border passes through the row of every labelled cell. -/
theorem exists_border_of_label {x y : Nat} {label : Int}
    (found : (ofMask mask).get? x y = some label) (nonzero : label ≠ 0) :
    ∃ border ∈ Border.all mask, Spans border.points y := by
  have painted : (ofMask mask).get? x y = some label →
      ∃ border ∈ Border.all mask, Spans border.points y := by
    rw [ofMask]
    apply List.foldlRecOn (motive := fun painted : LabelMap =>
      painted.get? x y = some label →
        ∃ border ∈ Border.all mask, Spans border.points y)
    · intro blank
      rw [LabelMap.blank, Raster.get?_filled, Option.ite_none_right_eq_some,
        Option.some.injEq] at blank
      exact absurd blank.2.symm nonzero
    · rintro painted earlier ⟨border, borderLabel⟩ listed same
      by_cases spans : Spans border.points y
      · exact ⟨border, (List.of_mem_zip listed).1, spans⟩
      · rw [get?_paintFilled_of_not_spans painted spans] at same
        exact earlier same
  exact painted found

/-! ## Rows of a component -/

/-- Within a component all rows between two of its cells are passed. -/
theorem exists_mem_component_of_between {labels : LabelMap}
    {first second : Point} (member : second ∈ labels.component first)
    {row : Nat} (below : first.y ≤ row) (above : row ≤ second.y) :
    ∃ cell ∈ labels.component first, cell.y = row := by
  induction member with
  | refl =>
      exact ⟨first, self_mem_component labels first, by omega⟩
  | @tail source target chain joined inductionHypothesis =>
      by_cases within : row ≤ source.y
      · exact inductionHypothesis within
      · have touches := joined.1
        unfold Point.Touches at touches
        exact ⟨target, Relation.ReflTransGen.tail chain joined, by omega⟩

/--
A walk along a row from a set cell reaches its goal within the component, or
comes to a cell beside a clear one.
-/
theorem mem_component_or_exists_besideClear {cell : Point} {x : Nat}
    (isSet : mask.silhouette.IsForeground cell)
    (inside : mask.Contains x cell.y) :
    { x, y := cell.y } ∈ mask.silhouette.component cell ∨
      ∃ edge ∈ mask.silhouette.component cell, edge.y = cell.y ∧
        mask.BesideClear edge := by
  -- Induction on the number of columns left to walk.
  obtain ⟨distance, isDistance⟩ :
      ∃ distance, distance = (x - cell.x) + (cell.x - x) := ⟨_, rfl⟩
  induction distance generalizing cell with
  | zero =>
      have here : { x, y := cell.y } = cell := by
        cases cell
        simp only [Point.mk.injEq, and_true] at isDistance ⊢
        omega
      rw [here]
      exact .inl (self_mem_component _ cell)
  | succ distance inductionHypothesis =>
      have cellInside := GrayPicture.contains_of_isForeground isSet
      obtain ⟨next, adjacent, closer⟩ : ∃ next,
          (next + 1 = cell.x ∨ next = cell.x + 1) ∧
            distance = (x - next) + (next - x) := by
        by_cases left : x < cell.x
        · exact ⟨cell.x - 1, by omega, by omega⟩
        · exact ⟨cell.x + 1, by omega, by omega⟩
      have nextInside : mask.Contains next cell.y := by
        unfold Raster.Contains at *
        omega
      obtain ⟨brightness, bright⟩ := Raster.get?_of_contains nextInside
      by_cases clear : brightness = 0
      · exact .inr ⟨cell, self_mem_component _ cell, rfl, isSet, next, adjacent,
          clear ▸ bright⟩
      · have nextSet :
            mask.silhouette.IsForeground { x := next, y := cell.y } :=
          GrayPicture.isForeground_silhouette_iff.2 ⟨brightness, clear, bright⟩
        have touches : cell.Touches { x := next, y := cell.y } := by
          unfold Point.Touches
          dsimp only
          omega
        have joined := GrayPicture.joined_silhouette touches isSet nextSet
        have walked := @inductionHypothesis { x := next, y := cell.y } nextSet
          inside closer
        rw [component_eq_of_mem (Relation.ReflTransGen.single joined)] at walked
        exact walked

/--
A component with a clear cell in one of its rows has a cell beside a clear one.
-/
theorem exists_besideClear_of_clear {cell : Point} {x : Nat}
    (isSet : mask.silhouette.IsForeground cell)
    (clear : mask.get? x cell.y = some 0) :
    ∃ edge ∈ mask.silhouette.component cell, mask.BesideClear edge := by
  rcases mem_component_or_exists_besideClear isSet
      (Raster.contains_of_get? clear) with reached | edge
  · obtain ⟨_, nonzero, found⟩ := GrayPicture.isForeground_silhouette_iff.1
      (isForeground_of_mem isSet reached)
    rw [clear, Option.some.injEq] at found
    exact absurd found.symm nonzero
  · obtain ⟨edge, member, _, beside⟩ := edge
    exact ⟨edge, member, beside⟩

/--
A border that passes through the row of a set cell starts in its component,
unless the row has a clear cell; so some row of the component has one.
-/
theorem exists_clear_of_spans {border : Border} {cell : Point}
    (isSet : mask.silhouette.IsForeground cell)
    (listed : border ∈ Border.all mask) (spans : Spans border.points cell.y) :
    ∃ other ∈ mask.silhouette.component cell, ∃ x,
      mask.get? x other.y = some 0 := by
  obtain ⟨start, _, beside, inside⟩ := Border.exists_start_of_mem_all listed
  obtain ⟨above, aboveMember, below, belowMember, between⟩ := spans
  have aboveComponent := component_eq_of_mem (inside above aboveMember)
  obtain ⟨passing, passingMember, sameRow⟩ := exists_mem_component_of_between
    (aboveComponent ▸ inside below belowMember) between.1 between.2
  rw [aboveComponent] at passingMember
  have passingSet := isForeground_of_mem beside.1 passingMember
  rcases mem_component_or_exists_besideClear passingSet
      (sameRow ▸ GrayPicture.contains_of_isForeground isSet) with
    reached | edge
  -- The row connects the border with the cell, so the start of the border, which
  -- has a clear cell beside it, lies in the component.
  · have here : { x := cell.x, y := passing.y } = cell := by rw [sameRow]
    rw [here] at reached
    have connected : start ∈ mask.silhouette.component cell := by
      rw [component_eq_of_mem reached, component_eq_of_mem passingMember]
      exact self_mem_component _ start
    obtain ⟨column, _, clear⟩ := beside.2
    exact ⟨start, connected, column, clear⟩
  · obtain ⟨edge, _, edgeRow, _, column, _, clear⟩ := edge
    rw [edgeRow, sameRow] at clear
    exact ⟨cell, self_mem_component _ cell, column, clear⟩

/--
The component of a set cell contains a labelled cell exactly if one of its rows
has a clear cell.
-/
theorem component_marked_iff (mask : GrayPicture) (point : Point)
    (isSet : mask.silhouette.IsForeground point) :
    (∃ cell ∈ mask.silhouette.component point, ∃ label, 0 < label ∧
      (ofMask mask).get? cell.x cell.y = some label) ↔
      ∃ cell ∈ mask.silhouette.component point, ∃ x,
        mask.get? x cell.y = some 0 := by
  constructor
  · rintro ⟨cell, member, label, positive, labelled⟩
    obtain ⟨border, listed, spans⟩ :=
      exists_border_of_label labelled (Int.ne_of_gt positive)
    rw [← component_eq_of_mem member]
    exact exists_clear_of_spans (isForeground_of_mem isSet member) listed spans
  · rintro ⟨cell, member, x, clear⟩
    obtain ⟨edge, edgeMember, beside⟩ :=
      exists_besideClear_of_clear (isForeground_of_mem isSet member) clear
    obtain ⟨border, listed, onBorder⟩ :=
      Border.exists_border_of_besideClear beside
    exact ⟨edge, component_eq_of_mem member ▸ edgeMember,
      exists_label_of_mem_border listed onBorder⟩

/--
A strip along the left edge, from the top to the bottom, is marked: its rows have
clear cells to its right.
-/
theorem left_strip_is_marked :
    let strip : GrayPicture := Raster.ofFn 3 3 fun x _ => if x = 0 then 255 else 0
    strip.silhouette.IsForeground { x := 0, y := 1 } ∧
      ∃ cell ∈ strip.silhouette.component { x := 0, y := 1 },
        ∃ label, 0 < label ∧
          (ofMask strip).get? cell.x cell.y = some label := by
  intro strip
  have isSet : strip.silhouette.IsForeground { x := 0, y := 1 } :=
    GrayPicture.isForeground_silhouette_iff.2 ⟨255, by decide, by decide⟩
  exact ⟨isSet, (component_marked_iff strip { x := 0, y := 1 } isSet).2
    ⟨{ x := 0, y := 1 }, self_mem_component _ _, 1, by decide⟩⟩

/-- A band of set cells across the whole mask is a component without a label. -/
theorem band_is_not_marked :
    let band : GrayPicture := Raster.ofFn 3 3 fun _ y => if y = 1 then 255 else 0
    band.silhouette.IsForeground { x := 1, y := 1 } ∧
      ¬ ∃ cell ∈ band.silhouette.component { x := 1, y := 1 },
        ∃ label, 0 < label ∧
          (ofMask band).get? cell.x cell.y = some label := by
  intro band
  have unmarked : ofMask band = blank 3 3 := by decide +kernel
  refine ⟨GrayPicture.isForeground_silhouette_iff.2
    ⟨255, by decide, by decide⟩, ?_⟩
  rintro ⟨cell, _, label, positive, found⟩
  rw [unmarked, blank, Raster.get?_filled, Option.ite_none_right_eq_some,
    Option.some.injEq] at found
  exact absurd found.2 (Int.ne_of_lt positive)

end LabelMap

end ScreenCompare
