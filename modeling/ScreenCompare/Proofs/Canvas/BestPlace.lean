import ScreenCompare.Proofs.Canvas.SingleSum
import ScreenCompare.Proofs.Canvas.TemplateSearch

/-!
# The best place has the smallest score

A place is scored by adding squared differences in single precision, cell after
cell.  The search computes with whole numbers instead, and gives places up
early.  It finds the first place with the smallest score all the same
(`bestPlace?_is_first_least`): the score is the sum in single precision
(`score_eq_single`), and sums are ordered as their scores are.
-/

namespace ScreenCompare

open TemplateSum (addCell addSquare single total IsExact growthLimit)

namespace TemplateSum

variable {picture template : GrayPicture} {place : Point} {sum : Nat}

theorem addSquare_comm (sum : Nat) (first second : UInt8) :
    addSquare sum first second = addSquare sum second first := by
  rw [addSquare_eq, addSquare_eq, Color.channelStep_comm]

/-- Sums stay within the numbers that single precision keeps exactly. -/
theorem foldl_addCell_representable (exact : IsExact sum)
    (within : sum ≤ growthLimit) (cells : List Point) :
    let whole := cells.foldl (addCell template picture place) sum
    IsExact whole ∧ whole ≤ growthLimit := by
  induction cells generalizing sum with
  | nil => exact ⟨exact, within⟩
  | cons cell rest inductionHypothesis =>
      exact inductionHypothesis (isExact_addSquare ..)
        (addSquare_le_growthLimit within ..)

theorem total_representable (room : picture.HasRoomAt template place) :
    IsExact (total template picture place) ∧
      total template picture place ≤ growthLimit := by
  rw [total_eq_foldl room]
  exact foldl_addCell_representable
    (isExact_of_lt_precisionLimit (by decide)) (Nat.zero_le _) _

end TemplateSum

namespace GrayPicture

variable {picture template : GrayPicture} {place : Point}

/-- Add the squared difference at one cell of a template in single precision. -/
def addToScore (picture template : GrayPicture) (place : Point)
    (score : Float32) (cell : Point) : Float32 :=
  let difference :=
    (picture.getD (place.x + cell.x) (place.y + cell.y) 0).toFloat32 -
      (template.getD cell.x cell.y 0).toFloat32
  score + difference * difference

/--
The score of a place: the squared differences of a template to the cells under
it, added in single precision in row order.
-/
def score (picture template : GrayPicture) (place : Point) : Float32 :=
  template.points.foldl (picture.addToScore template place) (Float32.ofBits 0)

theorem foldl_addToScore {sum : Nat} (exact : IsExact sum)
    (within : sum ≤ growthLimit) (cells : List Point) :
    cells.foldl (picture.addToScore template place) (single sum) =
      single (cells.foldl (addCell template picture place) sum) := by
  induction cells generalizing sum with
  | nil => rfl
  | cons cell rest inductionHypothesis =>
      have step : picture.addToScore template place (single sum) cell =
          single (addCell template picture place sum cell) := by
        rw [addToScore, TemplateSum.add_square exact within,
          TemplateSum.addSquare_comm]
        rfl
      rw [List.foldl_cons, List.foldl_cons, step]
      exact inductionHypothesis (TemplateSum.isExact_addSquare ..)
        (TemplateSum.addSquare_le_growthLimit within ..)

theorem score_eq_single (room : picture.HasRoomAt template place) :
    picture.score template place = single (total template picture place) := by
  have zero : Float32.ofBits 0 = single 0 := by decide +kernel
  rw [score, zero, TemplateSum.total_eq_foldl room]
  exact foldl_addToScore (TemplateSum.isExact_of_lt_precisionLimit (by decide))
    (Nat.zero_le _) _

section Order

variable {other : Point} (room : picture.HasRoomAt template place)
  (otherRoom : picture.HasRoomAt template other)

include room otherRoom

theorem score_le_iff :
    picture.score template place ≤ picture.score template other ↔
      total template picture place ≤ total template picture other := by
  have first := TemplateSum.total_representable room
  have second := TemplateSum.total_representable otherRoom
  rw [score_eq_single room, score_eq_single otherRoom]
  exact TemplateSum.single_le_iff first.1 first.2 second.1 second.2

theorem score_lt_iff :
    picture.score template place < picture.score template other ↔
      total template picture place < total template picture other := by
  have first := TemplateSum.total_representable room
  have second := TemplateSum.total_representable otherRoom
  rw [score_eq_single room, score_eq_single otherRoom]
  exact TemplateSum.single_lt_iff first.1 first.2 second.1 second.2

end Order

/--
The search ends nowhere if the template has no cells or does not fit.  Otherwise
it ends at a place with room for the template, the first one in row order with
the smallest score.  If there is any copy of the template in the picture, it
ends at the first one.
-/
theorem bestPlace?_is_first_least (picture template : GrayPicture) :
    match picture.bestPlace? template with
    | none => template.IsEmpty ∨ picture.width < template.width ∨
        picture.height < template.height
    | some place =>
        ¬ template.IsEmpty ∧ picture.HasRoomAt template place ∧
        (∀ other, picture.HasRoomAt template other →
          picture.score template place ≤ picture.score template other ∧
          (other.Before place →
            picture.score template place < picture.score template other)) ∧
        ∀ other, picture.HasCopyAt template other →
          picture.HasCopyAt template place ∧ ¬ other.Before place := by
  cases found : picture.bestPlace? template with
  | none =>
      have lacks := bestPlace?_eq_none_iff.1 found
      by_cases cells : template.IsEmpty
      · exact Or.inl cells
      · have larger := not_and.1 lacks cells
        exact Or.inr (by omega)
  | some place =>
      have cells := (canHold_of_bestPlace? found).1
      have room := hasRoomAt_of_bestPlace? found
      refine ⟨cells, room, ?_, ?_⟩
      · intro other otherRoom
        rw [score_le_iff room otherRoom, score_lt_iff room otherRoom]
        exact total_bestPlace?_le found otherRoom
      · intro other copy
        rcases exists_bestPlace?_of_copy cells copy with
          ⟨first, firstFound, firstCopy, earliest⟩
        obtain rfl := Option.some.inj (found.symm.trans firstFound)
        exact ⟨firstCopy, earliest other copy⟩

/--
Once a sum has more than 24 bits, a difference of one between two cells is lost
in it, but one of two is not.
-/
example : addSquare 16777216 0 1 = 16777216 ∧
    addSquare 16777216 0 2 = 16777220 := by
  decide +kernel

end GrayPicture

end ScreenCompare
