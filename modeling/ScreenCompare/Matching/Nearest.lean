import ScreenCompare.Descriptor

/-!
# Nearest rows

Each row of one descriptor is compared with all rows of another one, and the
nearest of them is its correspondence.  Of equally near rows the first one wins.
A distance that is not a number compares with nothing: it replaces whatever was
found before, and is replaced by whatever comes next.
-/

namespace ScreenCompare

/-- A row, its nearest row in the other descriptor, and their distance. -/
structure Correspondence where
  source : Nat
  target : Nat
  distance : Single
deriving DecidableEq, Repr

namespace Descriptor

/-- Keep the best candidate so far if it is at most as far as the next one. -/
def keepNearer (best : Option (Nat × Single)) (candidate : Nat × Single) :
    Option (Nat × Single) :=
  match best with
  | none => some candidate
  | some held =>
      if held.2.value ≤ candidate.2.value then some held else some candidate

/--
The nearest of some rows, counted from a position, given the best one before.
-/
def nearestFrom (row : List Single) :
    (position : Nat) → (best : Option (Nat × Single)) → List (List Single) →
      Option (Nat × Single)
  | _, best, [] => best
  | position, best, candidate :: rest =>
      nearestFrom row (position + 1)
        (keepNearer best (position, Single.distance row candidate)) rest

/-- The position and the distance of the nearest of some rows. -/
def nearest? (row : List Single) (candidates : List (List Single)) :
    Option (Nat × Single) :=
  nearestFrom row 0 none candidates

/-- The correspondence of each row of a descriptor, in row order. -/
def correspondences (sources targets : Descriptor) : List Correspondence :=
  sources.rows.zipIdx.filterMap fun (row, position) =>
    (nearest? row targets.rows).map fun (nearest, distance) =>
      { source := position, target := nearest, distance }

end Descriptor

end ScreenCompare
