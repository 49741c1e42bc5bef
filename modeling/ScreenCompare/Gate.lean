import ScreenCompare.Gate.Histogram

/-!
# Telling equal pictures apart at once

Before anything else is done with two pictures their histograms are compared.
Pictures with distinguishable histograms are different.  Hue and saturation
ignore brightness, so pictures with matching histograms are compared cell by
cell as well.
-/

namespace ScreenCompare

/-- The outcome of the first comparison of two pictures. -/
inductive Verdict where
  | different
  | same
  /-- One of the pictures has no cells. -/
  | emptyPicture
deriving DecidableEq, Repr

namespace Histogram

/-- A chi-square distance too small to tell two histograms apart. -/
def isNegligible (distance : Float) : Bool :=
  distance - 1e-5 ≤ 1e-13

end Histogram

namespace Picture

/-- Judge whether two pictures are the same. -/
def compare (old new : Picture) : Verdict :=
  if old.IsEmpty ∨ new.IsEmpty then
    .emptyPicture
  else if Histogram.isNegligible
      ((Histogram.ofPicture old).chiSquare (Histogram.ofPicture new)) &&
      decide (old = new) then
    .same
  else
    .different

end Picture

end ScreenCompare
