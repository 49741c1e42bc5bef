/-!
# Misuse of the library

Some operations are only meant for arguments that fit together: a segment area
inside its picture, a label map of the relief's size, a pair that names segments
which exist.  Outside that contract they answer with the rule that was broken
and produce nothing else.
-/

namespace ScreenCompare

/-- A broken precondition. -/
inductive Misuse where
  /-- A label map has no cell at this position. -/
  | noSuchCell (position : Nat)
  /-- A raised label leaves the 32-bit range. -/
  | labelOverflow
  /-- A label map and its relief have different sizes. -/
  | sizesDiffer
  /-- A segment area is empty or reaches outside its picture. -/
  | areaOutsidePicture
  /-- Descriptor rows have different lengths. -/
  | raggedRows
  /-- A match pair names a segment that does not exist. -/
  | noSuchSegment (index : Nat)
  /-- A phase names a parent that was never started, or such a phase is stopped. -/
  | noSuchPhase (index : Nat)
deriving DecidableEq, Repr

namespace Misuse

/-- Describe the broken precondition. -/
def message : Misuse → String
  | noSuchCell position => "no cell at position " ++ toString position
  | labelOverflow => "a raised label leaves the 32-bit range"
  | sizesDiffer => "the label map and the relief have different sizes"
  | areaOutsidePicture => "the area is empty or outside its picture"
  | raggedRows => "descriptor rows have different lengths"
  | noSuchSegment index => "no segment number " ++ toString index
  | noSuchPhase index => "no phase number " ++ toString index

end Misuse

end ScreenCompare
