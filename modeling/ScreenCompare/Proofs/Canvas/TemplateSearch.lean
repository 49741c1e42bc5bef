import Mathlib.Data.List.MinMax
import ScreenCompare.Proofs.Canvas.SumRounding
import ScreenCompare.Proofs.Raster

/-!
# A search finds the first place with the smallest sum

A sum never shrinks while it is taken, so a place that is given up early has not
the smallest one (`below?_eq`).  The search therefore ends at the first place in
row order whose sum is smallest (`bestPlace?_eq_argmin`).

A sum of squared differences is rounded after every addition, but rounding
leaves zero alone and turns nothing else into zero.  So a place has the sum zero
exactly if the template lies there cell for cell (`total_eq_zero_iff`), however
large the other sums grow, and a search in a picture that holds a copy of the
template ends at the first one (`exists_bestPlace?_of_copy`).
-/

namespace ScreenCompare

namespace GrayPicture

variable {picture template : GrayPicture} {place : Point}

/-- All of the template lies on the picture with its corner at a place. -/
def HasRoomAt (picture template : GrayPicture) (place : Point) : Prop :=
  place.x + template.width ≤ picture.width ∧
    place.y + template.height ≤ picture.height

theorem HasRoomAt.contains (room : picture.HasRoomAt template place)
    {x y : Nat} (inside : template.Contains x y) :
    picture.Contains (place.x + x) (place.y + y) := by
  unfold Raster.Contains HasRoomAt at *
  omega

/--
The template lies in the picture cell for cell with its corner at a place.
-/
def HasCopyAt (picture template : GrayPicture) (place : Point) : Prop :=
  picture.HasRoomAt template place ∧
    ∀ x y, template.Contains x y →
      template.get? x y = picture.get? (place.x + x) (place.y + y)

theorem mem_placesOf :
    place ∈ picture.placesOf template ↔ picture.HasRoomAt template place := by
  obtain ⟨x, y⟩ := place
  simp only [placesOf, List.mem_flatMap, List.mem_map, List.mem_range,
    Point.mk.injEq, HasRoomAt]
  constructor
  · rintro ⟨row, rowInside, column, columnInside, rfl, rfl⟩
    omega
  · rintro ⟨columns, rows⟩
    exact ⟨y, by omega, x, by omega, rfl, rfl⟩

/-- The places are listed in row order. -/
theorem pairwise_placesOf (picture template : GrayPicture) :
    (picture.placesOf template).Pairwise Point.Before :=
  Raster.pairwise_points (Raster.filled (picture.width + 1 - template.width)
    (picture.height + 1 - template.height) ())

/-- There is room for a template with cells if there is some at the corner. -/
theorem canHold_iff : picture.CanHold template ↔
    ¬ template.IsEmpty ∧ ∃ place, picture.HasRoomAt template place := by
  apply and_congr_right'
  unfold HasRoomAt
  constructor
  · rintro ⟨columns, rows⟩
    exact ⟨⟨0, 0⟩, by simpa using columns, by simpa using rows⟩
  · rintro ⟨place, columns, rows⟩
    omega

end GrayPicture

namespace TemplateSum

variable {picture template : GrayPicture} {place : Point} {sum : Nat}

/-! ## Sums at a place -/

/--
Add the squared difference at one cell of a template, laid on the picture with
its corner at a place.
-/
def addCell (template picture : GrayPicture) (place : Point) (sum : Nat)
    (cell : Point) : Nat :=
  addSquare sum (template.getD cell.x cell.y 0)
    (picture.getD (place.x + cell.x) (place.y + cell.y) 0)

theorem addRun_eq_foldl {count x : Nat}
    (inside : x + count ≤ template.width)
    (room : place.x + template.width ≤ picture.width) (y : Nat) :
    addRun template picture count (template.index x y)
        (picture.index (place.x + x) (place.y + y)) sum =
      (List.range' x count).foldl
        (fun sum x => addCell template picture place sum ⟨x, y⟩) sum := by
  induction count generalizing x sum with
  | zero => rfl
  | succ count inductionHypothesis =>
      rw [addRun, List.range'_succ, List.foldl_cons,
        ← inductionHypothesis (by omega), addCell, Raster.getD,
        if_pos (show x < template.width by omega), Raster.getD,
        if_pos (show place.x + x < picture.width by omega)]
      rfl

/-- The sum is taken over the cells of the template in row order. -/
theorem total_eq_foldl (room : picture.HasRoomAt template place) :
    total template picture place =
      template.points.foldl (addCell template picture place) 0 := by
  rw [total, Raster.points, List.foldl_flatMap]
  congr 1
  funext sum y
  rw [List.foldl_map, List.range_eq_range']
  exact addRun_eq_foldl (Nat.le_of_eq (Nat.zero_add _)) room.1 y

/-! ## Rounding and zero -/

theorem round_eq_zero_iff {number : Nat} : round number = 0 ↔ number = 0 := by
  constructor
  · intro rounded
    apply Nat.eq_zero_of_not_pos
    intro positive
    have atLeast := le_round_of_isExact (isExact_two_pow 0) positive
    omega
  · rintro rfl
    rfl

theorem addSquare_eq_zero_iff {first second : UInt8} :
    addSquare sum first second = 0 ↔ sum = 0 ∧ first = second := by
  rw [addSquare_eq, round_eq_zero_iff, Nat.add_eq_zero_iff, Nat.mul_eq_zero,
    or_self, Color.channelStep, ← UInt8.toNat_inj]
  omega

theorem foldl_addCell_eq_zero_iff {cells : List Point} :
    cells.foldl (addCell template picture place) sum = 0 ↔
      sum = 0 ∧ ∀ cell ∈ cells, template.getD cell.x cell.y 0 =
        picture.getD (place.x + cell.x) (place.y + cell.y) 0 := by
  induction cells generalizing sum with
  | nil => simp
  | cons cell rest inductionHypothesis =>
      rw [List.foldl_cons, inductionHypothesis, addCell, addSquare_eq_zero_iff,
        List.forall_mem_cons, and_assoc]

/-- Where a template has room, the sum is zero exactly for a copy of it. -/
theorem total_eq_zero_iff (room : picture.HasRoomAt template place) :
    total template picture place = 0 ↔ picture.HasCopyAt template place := by
  have agrees {x y : Nat} (inside : template.Contains x y) :
      template.getD x y 0 = picture.getD (place.x + x) (place.y + y) 0 ↔
        template.get? x y = picture.get? (place.x + x) (place.y + y) :=
    Raster.getD_eq_getD_iff inside (room.contains inside) 0
  rw [total_eq_foldl room, foldl_addCell_eq_zero_iff, GrayPicture.HasCopyAt]
  constructor
  · rintro ⟨_, same⟩
    refine ⟨room, ?_⟩
    intro x y inside
    exact (agrees inside).1 (same ⟨x, y⟩ (Raster.mem_points.2 inside))
  · rintro ⟨_, copy⟩
    refine ⟨rfl, ?_⟩
    intro cell member
    have inside := Raster.mem_points.1 member
    exact (agrees inside).2 (copy cell.x cell.y inside)

/-! ## Giving up early -/

theorem addRun_grows (exact : IsExact sum) (template picture : GrayPicture)
    (count templatePosition picturePosition : Nat) :
    let grown := addRun template picture count templatePosition picturePosition
      sum
    IsExact grown ∧ sum ≤ grown := by
  induction count generalizing templatePosition picturePosition sum with
  | zero => exact ⟨exact, Nat.le_refl sum⟩
  | succ count inductionHypothesis =>
      have next := inductionHypothesis (isExact_addSquare sum
          (template.cells.getD templatePosition 0)
          (picture.cells.getD picturePosition 0))
        (templatePosition + 1) (picturePosition + 1)
      exact ⟨next.1, Nat.le_trans (le_addSquare exact ..) next.2⟩

theorem addRow_grows (exact : IsExact sum) (row : Nat) :
    IsExact (addRow template picture place sum row) ∧
      sum ≤ addRow template picture place sum row :=
  addRun_grows exact ..

theorem le_foldl_addRow (exact : IsExact sum) (rows : List Nat) :
    sum ≤ rows.foldl (addRow template picture place) sum := by
  induction rows generalizing sum with
  | nil => exact Nat.le_refl sum
  | cons row rest inductionHypothesis =>
      have next : IsExact (addRow template picture place sum row) ∧
          sum ≤ addRow template picture place sum row := addRow_grows exact row
      exact Nat.le_trans next.2 (inductionHypothesis next.1)

theorem belowFrom?_eq {limit rowsLeft row : Nat} (exact : IsExact sum) :
    belowFrom? template picture place limit rowsLeft row sum =
      let whole := (List.range' row rowsLeft).foldl
        (addRow template picture place) sum
      if whole < limit then some whole else none := by
  induction rowsLeft generalizing row sum with
  | zero => rfl
  | succ rowsLeft inductionHypothesis =>
      rw [belowFrom?]
      split
      · exact inductionHypothesis (addRow_grows exact row).1
      · next given =>
          have atLeast : sum ≤ (List.range' row (rowsLeft + 1)).foldl
              (addRow template picture place) sum := le_foldl_addRow exact _
          exact (if_neg (by omega)).symm

/-- A place is given up exactly if its whole sum is not below the limit. -/
theorem below?_eq (template picture : GrayPicture) (place : Point)
    (limit : Nat) :
    below? template picture place limit =
      if total template picture place < limit then
        some (total template picture place)
      else none := by
  rw [total, List.range_eq_range']
  exact belowFrom?_eq (isExact_of_lt_precisionLimit (by decide))

end TemplateSum

namespace GrayPicture

variable {picture template : GrayPicture} {place : Point}

/-! ## Searching all places -/

/-- A place with the sum there. -/
def withTotal (picture template : GrayPicture) (place : Point) : Point × Nat :=
  (place, TemplateSum.total template picture place)

theorem keepCloser_withTotal (best : Option Point) (place : Point) :
    picture.keepCloser template (best.map (picture.withTotal template)) place =
      (List.argAux (fun other held =>
        TemplateSum.total template picture other <
          TemplateSum.total template picture held) best place).map
        (picture.withTotal template) := by
  cases best with
  | none => rfl
  | some held =>
      rw [Option.map_some, keepCloser]
      dsimp only [withTotal, List.argAux]
      rw [TemplateSum.below?_eq]
      split_ifs
      · rfl
      · rfl

/-- What is kept over some places is the first one with the smallest sum. -/
theorem foldl_keepCloser (picture template : GrayPicture)
    (places : List Point) :
    places.foldl (picture.keepCloser template) none =
      (places.argmin (TemplateSum.total template picture)).map
        (picture.withTotal template) :=
  @List.foldl_hom _ _ _ (Option.map (picture.withTotal template)) _ _ places
    none keepCloser_withTotal

/-- The search ends at the first place in row order with the smallest sum. -/
theorem bestPlace?_eq_argmin (holds : picture.CanHold template) :
    picture.bestPlace? template = (picture.placesOf template).argmin
      (TemplateSum.total template picture) := by
  rw [bestPlace?, if_pos holds, foldl_keepCloser, Option.map_map]
  exact Option.map_id'

theorem bestPlace?_eq_none_iff :
    picture.bestPlace? template = none ↔ ¬ picture.CanHold template := by
  constructor
  · intro missing holds
    rcases (canHold_iff.1 holds).2 with ⟨place, room⟩
    rw [bestPlace?_eq_argmin holds, List.argmin_eq_none] at missing
    exact List.ne_nil_of_mem (mem_placesOf.2 room) missing
  · exact fun lacks => if_neg lacks

theorem exists_bestPlace? (holds : picture.CanHold template) :
    ∃ place, picture.bestPlace? template = some place :=
  Option.ne_none_iff_exists'.1 fun missing =>
    bestPlace?_eq_none_iff.1 missing holds

theorem canHold_of_bestPlace?
    (found : picture.bestPlace? template = some place) :
    picture.CanHold template := by
  apply Classical.byContradiction
  intro lacks
  rw [bestPlace?_eq_none_iff.2 lacks] at found
  cases found

theorem hasRoomAt_of_bestPlace?
    (found : picture.bestPlace? template = some place) :
    picture.HasRoomAt template place := by
  rw [bestPlace?_eq_argmin (canHold_of_bestPlace? found)] at found
  exact mem_placesOf.1 (List.argmin_mem found)

/--
No place has a smaller sum than the best one, and none before it the same sum.
-/
theorem total_bestPlace?_le {other : Point}
    (found : picture.bestPlace? template = some place)
    (room : picture.HasRoomAt template other) :
    TemplateSum.total template picture place ≤
        TemplateSum.total template picture other ∧
      (other.Before place → TemplateSum.total template picture place <
        TemplateSum.total template picture other) := by
  rw [bestPlace?_eq_argmin (canHold_of_bestPlace? found)] at found
  have member := mem_placesOf.2 room
  refine ⟨List.le_of_mem_argmin member found, ?_⟩
  intro earlier
  apply Nat.lt_of_not_le
  intro noLarger
  have placeBound := List.idxOf_lt_length_of_mem (List.argmin_mem found)
  have otherBound := List.idxOf_lt_length_of_mem member
  have placeAt := List.getElem_idxOf placeBound
  have otherAt := List.getElem_idxOf otherBound
  -- The places are in row order, so an earlier one has a smaller index.
  rcases Nat.lt_or_eq_of_le (List.index_of_argmin found member noLarger) with
    later | same
  · have ordered := List.pairwise_iff_getElem.1
      (pairwise_placesOf picture template) _ _ placeBound otherBound later
    rw [placeAt, otherAt] at ordered
    exact ordered.asymm earlier
  · have equal : place = other := by
      rw [← placeAt, ← otherAt]
      congr 1
    rw [equal] at earlier
    exact earlier.irrefl

/--
If the picture holds a copy of a template that has cells, the search ends at the
first one in row order.
-/
theorem exists_bestPlace?_of_copy {place : Point} (cells : ¬ template.IsEmpty)
    (copy : picture.HasCopyAt template place) :
    ∃ first, picture.bestPlace? template = some first ∧
      picture.HasCopyAt template first ∧
      ∀ other, picture.HasCopyAt template other → ¬ other.Before first := by
  have holds := canHold_iff.2 ⟨cells, place, copy.1⟩
  rcases exists_bestPlace? holds with ⟨first, found⟩
  have zero : TemplateSum.total template picture first = 0 := by
    apply Nat.eq_zero_of_le_zero
    rw [← (TemplateSum.total_eq_zero_iff copy.1).2 copy]
    exact (total_bestPlace?_le found copy.1).1
  refine ⟨first, found, (TemplateSum.total_eq_zero_iff
    (hasRoomAt_of_bestPlace? found)).1 zero, ?_⟩
  intro other otherCopy earlier
  have smaller := (total_bestPlace?_le found otherCopy.1).2 earlier
  rw [zero, (TemplateSum.total_eq_zero_iff otherCopy.1).2 otherCopy] at smaller
  exact Nat.lt_irrefl 0 smaller

end GrayPicture

end ScreenCompare
