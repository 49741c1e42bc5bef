import ScreenCompare.Matching.Rule
import ScreenCompare.Segment

/-!
# Assigning old segments to new ones

Old segments look for a partner one after another.  Each takes the first new
segment that is still free and whose descriptor matches its own, and both flags
are raised.  Segments without a descriptor, and segments whose flag was raised
before, take no part.
-/

namespace ScreenCompare

/--
The pairs found, and the segments of both sides with their flags afterwards.
-/
structure Assignment where
  pairs : List MatchPair
  old : List Segment
  new : List Segment

namespace MatchRule

/-- A new segment is free and its descriptor matches the given one. -/
def isPartner (rule : MatchRule) (descriptor : Descriptor) (new : Segment) :
    Bool :=
  !new.matched &&
    match new.descriptor with
    | none => false
    | some other => rule.admits descriptor other

/-- The position of the new segment that an old one takes. -/
def partner? (rule : MatchRule) (old : Segment) (new : List Segment) :
    Option Nat :=
  match old.descriptor with
  | none => none
  | some descriptor =>
      if old.matched then none
      else new.findIdx? (rule.isPartner descriptor)

/-- Assign the old segments that remain, counted from a position. -/
def assignFrom (rule : MatchRule) :
    (position : Nat) → (old new : List Segment) → Assignment
  | _, [], new => { pairs := [], old := [], new }
  | position, segment :: rest, new =>
      match rule.partner? segment new with
      | none =>
          let later := rule.assignFrom (position + 1) rest new
          { later with old := segment :: later.old }
      | some partner =>
          let later := rule.assignFrom (position + 1) rest
            (new.modify partner fun taken => taken.mark.1)
          { later with
            pairs := { old := position, new := partner } :: later.pairs
            old := segment.mark.1 :: later.old }

/-- Assign old segments to new ones. -/
def assign (rule : MatchRule) (old new : List Segment) : Assignment :=
  rule.assignFrom 0 old new

end MatchRule

end ScreenCompare
