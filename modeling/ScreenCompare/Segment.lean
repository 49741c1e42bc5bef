import ScreenCompare.Descriptor
import ScreenCompare.Rect
import ScreenCompare.Segmentation

/-!
# Segments

A segment is a rectangular area of the old or the new picture that takes part in
matching.  It carries its gray crop, a descriptor once one has been computed,
and a flag that is raised when it finds a partner and never lowered.
-/

namespace ScreenCompare

/-- The picture a segment was cut from. -/
inductive Side where
  | old
  | new
deriving DecidableEq, Repr

namespace Side

/-- The name of a side in summaries. -/
def name : Side → String
  | old => "Old"
  | new => "New"

end Side

/-- A rectangular area of one of the two pictures. -/
structure Segment where
  side : Side
  area : Rect
  crop : GrayPicture
  descriptor : Option Descriptor
  matched : Bool

/--
A pair of matched segments, by their positions among the old and the new ones.
-/
structure MatchPair where
  old : Nat
  new : Nat
deriving DecidableEq, Repr

namespace Segment

/--
The segment over an area, which has to have cells and to lie in the picture.
-/
def ofArea (side : Side) (area : Rect) (gray : GrayPicture) :
    Except Misuse Segment :=
  if area.FitsInside gray.width gray.height then
    .ok
      { side
        area
        crop :=
          gray.crop area.left.toNat area.top.toNat area.width area.height 0
        descriptor := none
        matched := false }
  else .error .areaOutsidePicture

/-- Raise the flag of a segment, and tell whether it was down. -/
def mark (segment : Segment) : Segment × Bool :=
  ({ segment with matched := true }, !segment.matched)

/-- Compute the descriptor of a segment from its crop. -/
def describe (segment : Segment) : Segment :=
  { segment with descriptor := Descriptor.ofCrop? segment.crop }

/--
A one-line account of a segment: its side, its area, the number of its
keypoints and its flag.
-/
def summary (segment : Segment) : String :=
  let area := segment.area
  let keypoints :=
    match segment.descriptor with
    | none => "None"
    | some descriptor =>
        "Some(" ++ toString descriptor.rows.length ++ ")"
  "Segment \x7b side: " ++ segment.side.name ++
    ", area: Rect \x7b left: " ++ toString area.left ++
    ", top: " ++ toString area.top ++
    ", width: " ++ toString area.width ++
    ", height: " ++ toString area.height ++
    " \x7d, keypoints: " ++ keypoints ++
    ", matched: " ++ toString segment.matched ++ " \x7d"

/-- The segments of a picture with a given gray version, without descriptors. -/
def detect (side : Side) (picture : Picture) (gray : GrayPicture)
    (threshold : UInt8) : Except Misuse (List Segment) := do
  let regions ← picture.regionsOver gray threshold
  regions.mapM fun region => ofArea side region.bounds gray

end Segment

end ScreenCompare
