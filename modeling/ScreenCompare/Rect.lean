/-!
# Rectangles

Areas of a picture are given by their top left cell and their size.  The right
and bottom edges are inclusive, so a rectangle of width one has equal left and
right edges.
-/

namespace ScreenCompare

/-- An axis-parallel rectangle of cells, which may reach outside any picture. -/
structure Rect where
  left : Int
  top : Int
  width : Nat
  height : Nat
deriving DecidableEq, Repr, Inhabited

namespace Rect

/-- The last column of the rectangle. -/
def right (area : Rect) : Int :=
  area.left + area.width - 1

/-- The last row of the rectangle. -/
def bottom (area : Rect) : Int :=
  area.top + area.height - 1

/-- The cell lies in the rectangle. -/
def Contains (area : Rect) (x y : Int) : Prop :=
  area.left ≤ x ∧ x ≤ area.right ∧ area.top ≤ y ∧ y ≤ area.bottom

instance (area : Rect) (x y : Int) : Decidable (area.Contains x y) :=
  inferInstanceAs (Decidable (_ ∧ _ ∧ _ ∧ _))

/-- The cell lies on the one-cell-wide outline of the rectangle. -/
def OnOutline (area : Rect) (x y : Int) : Prop :=
  area.Contains x y ∧
    (x = area.left ∨ x = area.right ∨ y = area.top ∨ y = area.bottom)

instance (area : Rect) (x y : Int) : Decidable (area.OnOutline x y) :=
  inferInstanceAs (Decidable (_ ∧ _))

/-- The rectangle has cells, and all of them lie on a grid of the given size. -/
def FitsInside (area : Rect) (width height : Nat) : Prop :=
  0 < area.width ∧ 0 < area.height ∧
    0 ≤ area.left ∧ 0 ≤ area.top ∧
    area.right < width ∧ area.bottom < height

instance (area : Rect) (width height : Nat) :
    Decidable (area.FitsInside width height) :=
  inferInstanceAs (Decidable (_ ∧ _ ∧ _ ∧ _ ∧ _ ∧ _))

end Rect

end ScreenCompare
