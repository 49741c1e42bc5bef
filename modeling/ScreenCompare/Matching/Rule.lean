import ScreenCompare.Matching.Nearest

/-!
# When two descriptors match

The correspondences of two descriptors are judged by the median of their
distances, which is the entry in the middle after sorting, and the upper one of
the two if their number is even.  The median must not exceed a limit.

Without cross-check it is enough that the correspondences from the first to the
second descriptor pass, or those back.  With cross-check only correspondences
that are mutual count, and their median has to pass.
-/

namespace ScreenCompare

/-- Distances in their total order. -/
def sortDistances (distances : List Single) : List Single :=
  distances.mergeSort Single.totalOrder

/-- The middle of some distances after sorting. -/
def median? (distances : List Single) : Option Single :=
  (sortDistances distances)[distances.length / 2]?

/-- How descriptors are judged. -/
structure MatchRule where
  crossCheck : Bool
  maxDistance : Single

namespace MatchRule

/-- The rule with the usual limit, a distance of 1. -/
def standard (crossCheck : Bool) : MatchRule where
  crossCheck := crossCheck
  maxDistance := Single.one

/-- The median of some distances does not exceed the limit. -/
def passes (rule : MatchRule) (distances : List Single) : Bool :=
  match median? distances with
  | none => false
  | some median => decide (median.value ≤ rule.maxDistance.value)

/-- The correspondence back leads to where a correspondence came from. -/
def isMutual (backward : Array Correspondence)
    (correspondence : Correspondence) : Bool :=
  match backward[correspondence.target]? with
  | none => false
  | some back => back.target == correspondence.source

/-- Two descriptors match. -/
def admits (rule : MatchRule) (old new : Descriptor) : Bool :=
  if old.isEmpty || new.isEmpty then false
  else
    let forward := old.correspondences new
    if rule.crossCheck then
      let backward := (new.correspondences old).toArray
      rule.passes ((forward.filter (isMutual backward)).map
        Correspondence.distance)
    else
      rule.passes (forward.map Correspondence.distance) ||
        rule.passes ((new.correspondences old).map
          Correspondence.distance)

end MatchRule

end ScreenCompare
