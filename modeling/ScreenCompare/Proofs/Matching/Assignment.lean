import ScreenCompare.Matching.Assignment

/-!
# Assignments are one to one

An assignment runs over the old segments while the flags of the new segments
change.  What it guarantees is stated for the old segments that remain from a
position on, relative to the new segments as they are when that position is
reached: `Assignment.Sound`.  The empty rest is sound, an old segment without a
partner keeps a sound rest sound, and so does one that takes a free partner,
because the partner is no longer free for the rest.

The main statement is that pairs have increasing old positions and distinct new
positions, that both members of a pair were free and match, and that exactly the
flags of paired segments are raised.
-/

namespace ScreenCompare

namespace Segment

/-- Raise the flag of a segment if it has been taken. -/
def markIf (segment : Segment) (taken : Bool) : Segment :=
  { segment with matched := segment.matched || taken }

@[simp]
theorem markIf_false (segment : Segment) :
    segment.markIf false = segment := by
  simp [markIf]

theorem mark_fst (segment : Segment) :
    segment.mark.1 = segment.markIf true := by
  simp [mark, markIf]

@[simp]
theorem markIf_markIf (segment : Segment) (first second : Bool) :
    (segment.markIf first).markIf second =
      segment.markIf (first || second) := by
  simp [markIf, Bool.or_assoc]

end Segment

namespace MatchRule

/--
Two segments can become a pair: both are free, and their descriptors match.
-/
def Joins (rule : MatchRule) (old new : Segment) : Prop :=
  old.matched = false ∧ new.matched = false ∧
    ∃ oldDescriptor newDescriptor,
      old.descriptor = some oldDescriptor ∧
        new.descriptor = some newDescriptor ∧
        rule.admits oldDescriptor newDescriptor = true

theorem isPartner_iff
    {rule : MatchRule} {old : Segment} {descriptor : Descriptor}
    (new : Segment) (described : old.descriptor = some descriptor)
    (free : old.matched = false) :
    rule.isPartner descriptor new = true ↔ rule.Joins old new := by
  unfold isPartner Joins
  cases other : new.descriptor with
  | none => simp
  | some otherDescriptor => simp [described, free]

/-- An old segment takes the first new segment that it can form a pair with. -/
theorem partner?_eq_some_iff
    {rule : MatchRule} {old : Segment} {new : List Segment} {place : Nat} :
    rule.partner? old new = some place ↔
      (∃ partner, new[place]? = some partner ∧ rule.Joins old partner) ∧
        ∀ (earlier : Nat) (candidate : Segment),
          earlier < place → new[earlier]? = some candidate →
            ¬ rule.Joins old candidate := by
  cases described : old.descriptor with
  | none => simp [partner?, Joins, described]
  | some descriptor =>
      cases free : old.matched with
      | true => simp [partner?, Joins, described, free]
      | false =>
          have joins (candidate : Segment) :
              rule.isPartner descriptor candidate = true ↔
                rule.Joins old candidate :=
            isPartner_iff candidate described free
          simp only [partner?, described, free, Bool.false_eq_true, if_false,
            List.findIdx?_eq_some_iff_getElem, joins]
          constructor
          · rintro ⟨bound, joined, first⟩
            refine ⟨⟨new[place], List.getElem?_eq_getElem bound, joined⟩, ?_⟩
            intro earlier candidate before found
            rcases List.getElem?_eq_some_iff.1 found with ⟨_, rfl⟩
            exact first earlier before
          · rintro ⟨⟨partner, found, joined⟩, first⟩
            rcases List.getElem?_eq_some_iff.1 found with ⟨bound, rfl⟩
            refine ⟨bound, joined, ?_⟩
            intro earlier before
            exact first earlier _ before (List.getElem?_eq_getElem _)

end MatchRule

namespace Assignment

/-- What the assignment of old segments from a position on guarantees. -/
structure Sound (rule : MatchRule) (position : Nat) (old new : List Segment)
    (found : Assignment) : Prop where
  ordered : found.pairs.Pairwise fun first second => first.old < second.old
  distinct : found.pairs.Pairwise fun first second => first.new ≠ second.new
  joined : ∀ pair ∈ found.pairs, ∃ offset first second,
    pair.old = position + offset ∧ old[offset]? = some first ∧
      new[pair.new]? = some second ∧ rule.Joins first second
  oldFlags : found.old = old.mapIdx fun offset segment =>
    segment.markIf (found.pairs.any fun pair => pair.old == position + offset)
  newFlags : found.new = new.mapIdx fun place segment =>
    segment.markIf (found.pairs.any fun pair => pair.new == place)

namespace Sound

variable {rule : MatchRule} {position : Nat} {old new : List Segment}
  {later : Assignment}

theorem position_le
    (sound : Sound rule position old new later)
    {pair : MatchPair} (member : pair ∈ later.pairs) :
    position ≤ pair.old := by
  rcases sound.joined pair member with ⟨offset, _, _, equality, _⟩
  omega

/-- No pair found from a position on takes an earlier old segment. -/
theorem any_eq_false
    (sound : Sound rule (position + 1) old new later) :
    (later.pairs.any fun pair => pair.old == position) = false := by
  rw [List.any_eq_false]
  intro pair member same
  have bound := sound.position_le member
  rw [beq_iff_eq] at same
  omega

theorem nil : Sound rule position [] new { pairs := [], old := [], new } where
  ordered := List.Pairwise.nil
  distinct := List.Pairwise.nil
  joined := by simp
  oldFlags := rfl
  newFlags := by
    apply List.ext_getElem?
    intro place
    simp [List.getElem?_mapIdx]

theorem skip (segment : Segment)
    (sound : Sound rule (position + 1) old new later) :
    Sound rule position (segment :: old) new
      { later with old := segment :: later.old } where
  ordered := sound.ordered
  distinct := sound.distinct
  joined := by
    intro pair member
    rcases sound.joined pair member with
      ⟨offset, first, second, equality, atOld, atNew, joined⟩
    exact ⟨offset + 1, first, second, by omega, by simpa using atOld, atNew,
      joined⟩
  oldFlags := by
    rw [List.mapIdx_cons, Nat.add_zero, sound.any_eq_false, Segment.markIf_false,
      sound.oldFlags]
    simp only [Nat.add_assoc, Nat.add_comm 1]
  newFlags := sound.newFlags

/--
The partner that was taken is not free any more for the old segments that
follow, and all other new segments are as they were.
-/
theorem joins_of_modify {segment partner : Segment} {place other : Nat}
    (found : new[place]? = some partner) {candidate : Segment}
    (atOther :
      (new.modify place fun taken => taken.mark.1)[other]? = some candidate)
    (joined : rule.Joins segment candidate) :
    place ≠ other ∧ new[other]? = some candidate := by
  rw [List.getElem?_modify] at atOther
  by_cases same : place = other
  · subst other
    have taken : partner.mark.1 = candidate := by simpa [found] using atOther
    have free := joined.2.1
    simp [← taken, Segment.mark] at free
  · exact ⟨same, by simpa [same] using atOther⟩

theorem take {segment partner : Segment} {place : Nat}
    (found : new[place]? = some partner)
    (joined : rule.Joins segment partner)
    (sound : Sound rule (position + 1) old
      (new.modify place fun taken => taken.mark.1) later) :
    Sound rule position (segment :: old) new
      { later with
        pairs := { old := position, new := place } :: later.pairs
        old := segment.mark.1 :: later.old } where
  ordered := by
    rw [List.pairwise_cons]
    exact ⟨fun pair member => sound.position_le member, sound.ordered⟩
  distinct := by
    rw [List.pairwise_cons]
    refine ⟨?_, sound.distinct⟩
    intro pair member
    rcases sound.joined pair member with ⟨_, _, _, _, _, atNew, others⟩
    exact (joins_of_modify found atNew others).1
  joined := by
    intro pair member
    rcases List.mem_cons.1 member with rfl | member
    · exact ⟨0, segment, partner, rfl, rfl, found, joined⟩
    · rcases sound.joined pair member with
        ⟨offset, first, second, equality, atOld, atNew, others⟩
      exact ⟨offset + 1, first, second, by omega, by simpa using atOld,
        (joins_of_modify found atNew others).2, others⟩
  oldFlags := by
    have apart (offset : Nat) : (position == position + (offset + 1)) = false :=
      beq_false_of_ne (by omega)
    rw [List.mapIdx_cons, Segment.mark_fst]
    simp [sound.oldFlags, apart, Nat.add_assoc, Nat.add_comm 1]
  newFlags := by
    rw [sound.newFlags]
    apply List.ext_getElem?
    intro other
    simp only [List.getElem?_mapIdx, List.getElem?_modify, List.any_cons]
    cases new[other]? with
    | none => rfl
    | some candidate =>
        by_cases same : place = other
        · simp [same, Segment.mark_fst]
        · simp [same, beq_false_of_ne same]

end Sound

end Assignment

namespace MatchRule

/--
Every run over remaining old segments is sound, whatever was found before.
-/
theorem assignFrom_sound (rule : MatchRule) (position : Nat)
    (old new : List Segment) :
    Assignment.Sound rule position old new
      (rule.assignFrom position old new) := by
  induction old generalizing position new with
  | nil => exact Assignment.Sound.nil
  | cons segment rest inductionHypothesis =>
      rw [assignFrom]
      cases choice : rule.partner? segment new with
      | none => exact (inductionHypothesis (position + 1) new).skip segment
      | some place =>
          rcases (partner?_eq_some_iff.1 choice).1 with
            ⟨partner, found, joined⟩
          exact Assignment.Sound.take found joined
            (inductionHypothesis (position + 1) _)

/--
Assigning old segments to new ones yields a one-to-one list of pairs of free
segments with matching descriptors, ordered by old position; the flags of paired
segments are raised, and nothing else changes.
-/
theorem assign_one_to_one (rule : MatchRule) (old new : List Segment) :
    (rule.assign old new).pairs.Pairwise
        (fun first second => first.old < second.old) ∧
      (rule.assign old new).pairs.Pairwise
        (fun first second => first.new ≠ second.new) ∧
      (∀ pair ∈ (rule.assign old new).pairs, ∃ first second,
        old[pair.old]? = some first ∧ new[pair.new]? = some second ∧
          rule.Joins first second) ∧
      (rule.assign old new).old = old.mapIdx (fun position segment =>
        segment.markIf
          ((rule.assign old new).pairs.any fun pair => pair.old == position)) ∧
      (rule.assign old new).new = new.mapIdx (fun position segment =>
        segment.markIf
          ((rule.assign old new).pairs.any fun pair => pair.new == position)) := by
  have sound : Assignment.Sound rule 0 old new (rule.assign old new) :=
    assignFrom_sound rule 0 old new
  refine ⟨sound.ordered, sound.distinct, ?_, ?_, sound.newFlags⟩
  · intro pair member
    rcases sound.joined pair member with
      ⟨offset, first, second, equality, atOld, atNew, joined⟩
    rw [Nat.zero_add] at equality
    exact ⟨first, second, equality ▸ atOld, atNew, joined⟩
  · simpa using sound.oldFlags

end MatchRule

end ScreenCompare
