import ScreenCompare.Color

/-!
# Finding a crop in a picture

A crop is searched in a gray picture by the sum of its squared differences to
the cells under it.  The sum is kept in 24 significant bits: each square is
exact, and a sum that outgrows 24 bits is rounded to nearest, ties to even,
after every addition.  The place with the smallest sum wins, and the first one
in row order among equals.

Rounding never makes a sum smaller than it was before the addition, so a place
may be given up as soon as its sum reaches the smallest one so far.
-/

namespace ScreenCompare

namespace TemplateSum

/-- The smallest whole number with more than 24 significant bits. -/
def precisionLimit : Nat := 16777216

/--
The spacing of numbers with 24 significant bits around a whole number: 1 up to
the precision limit, and twice as much with every further bit.
-/
def spacing (number : Nat) : Nat :=
  if number < precisionLimit then 1 else 2 * spacing (number / 2)
termination_by number
decreasing_by
  unfold precisionLimit at *
  omega

/-- Round a whole number to a multiple of a unit, ties to the even multiple. -/
def roundToMultiple (unit number : Nat) : Nat :=
  let quotient := number / unit
  let rest := number % unit
  if unit < 2 * rest ∨ (2 * rest = unit ∧ quotient % 2 = 1) then
    (quotient + 1) * unit
  else quotient * unit

/-- Round a whole number to 24 significant bits. -/
def round (number : Nat) : Nat :=
  if number < precisionLimit then number
  else roundToMultiple (spacing number) number

/-- Add the squared difference of two brightness values. -/
@[inline] def addSquare (sum : Nat) (first second : UInt8) : Nat :=
  let difference :=
    if second ≤ first then (first - second).toNat
    else (second - first).toNat
  round (sum + difference * difference)

/--
Add the squared differences of consecutive cells, from given positions of the
stored order on.
-/
def addRun (template picture : GrayPicture) :
    (count templatePosition picturePosition sum : Nat) → Nat
  | 0, _, _, sum => sum
  | count + 1, templatePosition, picturePosition, sum =>
      addRun template picture count (templatePosition + 1)
        (picturePosition + 1)
        (addSquare sum (template.cells.getD templatePosition 0)
          (picture.cells.getD picturePosition 0))

/--
Add the squared differences of one template row, laid on the picture with its
top left corner at a place.
-/
def addRow (template picture : GrayPicture) (place : Point) (sum row : Nat) :
    Nat :=
  addRun template picture template.width (template.index 0 row)
    (picture.index place.x (place.y + row)) sum

/-- The sum of squared differences at a place. -/
def total (template picture : GrayPicture) (place : Point) : Nat :=
  (List.range template.height).foldl (addRow template picture place) 0

/-- Add the remaining template rows, or give up once the sum reaches a limit. -/
def belowFrom? (template picture : GrayPicture) (place : Point)
    (limit : Nat) : (rowsLeft row sum : Nat) → Option Nat
  | 0, _, sum => if sum < limit then some sum else none
  | rowsLeft + 1, row, sum =>
      if sum < limit then
        belowFrom? template picture place limit rowsLeft (row + 1)
          (addRow template picture place sum row)
      else none

/-- The sum at a place, if it is below a limit. -/
def below? (template picture : GrayPicture) (place : Point) (limit : Nat) :
    Option Nat :=
  belowFrom? template picture place limit template.height 0 0

end TemplateSum

namespace GrayPicture

/-- The places at which a template lies inside a picture, in row order. -/
def placesOf (picture template : GrayPicture) : List Point :=
  (List.range (picture.height + 1 - template.height)).flatMap fun y =>
    (List.range (picture.width + 1 - template.width)).map fun x => { x, y }

/-- The better of the best place so far and another place. -/
def keepCloser (picture template : GrayPicture)
    (best : Option (Point × Nat)) (place : Point) : Option (Point × Nat) :=
  match best with
  | none => some (place, TemplateSum.total template picture place)
  | some held =>
      match TemplateSum.below? template picture place held.2 with
      | some sum => some (place, sum)
      | none => some held

/-- The template has cells and is nowhere larger than the picture. -/
def CanHold (picture template : GrayPicture) : Prop :=
  ¬ template.IsEmpty ∧ template.width ≤ picture.width ∧
    template.height ≤ picture.height

instance (picture template : GrayPicture) :
    Decidable (picture.CanHold template) :=
  inferInstanceAs (Decidable (_ ∧ _ ∧ _))

/--
The place where a template resembles the picture most, if it can be held at all.
-/
def bestPlace? (picture template : GrayPicture) : Option Point :=
  if picture.CanHold template then
    ((picture.placesOf template).foldl (picture.keepCloser template) none).map
      Prod.fst
  else none

end GrayPicture

end ScreenCompare
