import Mathlib.Data.List.Nodup
import ScreenCompare.Proofs.Matching.Assignment

/-!
# First available partners

A list of pairs can be judged without a run of the assignment: no old segment
passes over an earlier new one that it could have taken, and none is left out as
long as a new one remains for it (`MatchRule.IsFirstAvailable`).  In both cases
the only excuse is that an old segment before it has taken the new one.

These conditions leave no choice.  Two lists that meet them agree on the old
segments before a position, hence on the one at that position
(`IsFirstAvailable.eq`), so the pairs of the assignment are the only list that
does (`assign_first_available`).
-/

namespace ScreenCompare

namespace MatchRule

/-- Some pair gives a new segment to an old one before a position. -/
def IsTakenBefore (pairs : List MatchPair) (position place : Nat) : Prop :=
  ∃ pair ∈ pairs, pair.old < position ∧ pair.new = place

/--
Each old segment has the first new one that no old segment before it has taken,
among those that it can form a pair with.
-/
structure IsFirstAvailable (rule : MatchRule) (old new : List Segment)
    (pairs : List MatchPair) : Prop where
  ordered : pairs.Pairwise fun first second => first.old < second.old
  distinct : pairs.Pairwise fun first second => first.new ≠ second.new
  joined : ∀ pair ∈ pairs, ∃ first second,
    old[pair.old]? = some first ∧ new[pair.new]? = some second ∧
      rule.Joins first second
  passedOver : ∀ pair ∈ pairs, ∀ first, old[pair.old]? = some first →
    ∀ (place : Nat) (candidate : Segment), place < pair.new →
      new[place]? = some candidate → rule.Joins first candidate →
        IsTakenBefore pairs pair.old place
  leftOut : ∀ (position : Nat) (first : Segment),
    old[position]? = some first → (∀ pair ∈ pairs, pair.old ≠ position) →
      ∀ (place : Nat) (candidate : Segment), new[place]? = some candidate →
        rule.Joins first candidate → IsTakenBefore pairs position place

/-- Two lists have the same pairs for the old segments before a position. -/
def AgreeBefore (position : Nat) (pairs others : List MatchPair) : Prop :=
  ∀ pair : MatchPair, pair.old < position → (pair ∈ pairs ↔ pair ∈ others)

variable {rule : MatchRule} {old new : List Segment}
  {pairs others : List MatchPair}

theorem AgreeBefore.symm {position : Nat}
    (agree : AgreeBefore position pairs others) :
    AgreeBefore position others pairs :=
  fun pair before => (agree pair before).symm

theorem eq_of_old_eq
    (ordered : pairs.Pairwise fun first second => first.old < second.old)
    {first second : MatchPair} (firstMember : first ∈ pairs)
    (secondMember : second ∈ pairs) (same : first.old = second.old) :
    first = second :=
  List.inj_on_of_nodup_map (List.pairwise_map.2 (ordered.imp Nat.ne_of_lt))
    firstMember secondMember same

theorem eq_of_new_eq
    (distinct : pairs.Pairwise fun first second => first.new ≠ second.new)
    {first second : MatchPair} (firstMember : first ∈ pairs)
    (secondMember : second ∈ pairs) (same : first.new = second.new) :
    first = second :=
  List.inj_on_of_nodup_map (List.pairwise_map.2 distinct) firstMember
    secondMember same

theorem IsTakenBefore.mono {position place : Nat}
    (agree : AgreeBefore position pairs others)
    (taken : IsTakenBefore pairs position place) :
    IsTakenBefore others position place := by
  rcases taken with ⟨pair, member, before, same⟩
  exact ⟨pair, (agree pair before).1 member, before, same⟩

/-! ## Uniqueness -/

namespace IsFirstAvailable

theorem nodup (available : rule.IsFirstAvailable old new pairs) :
    pairs.Nodup :=
  available.ordered.imp fun before same => by
    rw [same] at before
    exact Nat.lt_irrefl _ before

/-- The new segment of a pair has not been taken by an old segment before. -/
theorem not_isTakenBefore (available : rule.IsFirstAvailable old new pairs)
    {pair : MatchPair} (member : pair ∈ pairs) :
    ¬ IsTakenBefore pairs pair.old pair.new := by
  rintro ⟨earlier, earlierMember, before, same⟩
  rw [eq_of_new_eq available.distinct earlierMember member same] at before
  exact Nat.lt_irrefl _ before

/--
The partners of one old segment cannot differ, since the later one would have
passed over the earlier one.
-/
theorem new_le (available : rule.IsFirstAvailable old new pairs)
    (otherAvailable : rule.IsFirstAvailable old new others)
    {pair other : MatchPair} (member : pair ∈ pairs)
    (otherMember : other ∈ others) (same : pair.old = other.old)
    (agree : AgreeBefore pair.old pairs others) : pair.new ≤ other.new := by
  by_contra passed
  rcases otherAvailable.joined other otherMember with
    ⟨first, second, atOld, atNew, joined⟩
  rw [← same] at atOld
  have taken := available.passedOver pair member first atOld other.new second
    (by omega) atNew joined
  have takenToo := taken.mono agree
  rw [same] at takenToo
  exact otherAvailable.not_isTakenBefore otherMember takenToo

/-- An old segment that has a partner in one list has one in the other list. -/
theorem exists_old_eq (available : rule.IsFirstAvailable old new pairs)
    (otherAvailable : rule.IsFirstAvailable old new others)
    {pair : MatchPair} (member : pair ∈ pairs)
    (agree : AgreeBefore pair.old pairs others) :
    ∃ other ∈ others, other.old = pair.old := by
  by_contra none
  rcases available.joined pair member with
    ⟨first, second, atOld, atNew, joined⟩
  have unpaired : ∀ other ∈ others, other.old ≠ pair.old :=
    fun other otherMember same => none ⟨other, otherMember, same⟩
  have taken := otherAvailable.leftOut pair.old first atOld unpaired pair.new
    second atNew joined
  exact available.not_isTakenBefore member (taken.mono agree.symm)

theorem mem_of_mem (available : rule.IsFirstAvailable old new pairs)
    (otherAvailable : rule.IsFirstAvailable old new others)
    {pair : MatchPair} (member : pair ∈ pairs)
    (agree : AgreeBefore pair.old pairs others) : pair ∈ others := by
  rcases available.exists_old_eq otherAvailable member agree with
    ⟨other, otherMember, same⟩
  have below := available.new_le otherAvailable member otherMember same.symm
    agree
  have above := otherAvailable.new_le available otherMember member same
    (same ▸ agree.symm)
  have equal : pair = other := by
    cases pair
    cases other
    rw [MatchPair.mk.injEq]
    exact ⟨same.symm, Nat.le_antisymm below above⟩
  exact equal ▸ otherMember

/--
First-available lists agree, by induction on the position up to which they do.
-/
theorem agreeBefore (available : rule.IsFirstAvailable old new pairs)
    (otherAvailable : rule.IsFirstAvailable old new others)
    (position : Nat) : AgreeBefore position pairs others := by
  induction position with
  | zero => exact fun pair before => absurd before (Nat.not_lt_zero _)
  | succ position agree =>
      intro pair before
      rcases Nat.lt_succ_iff_lt_or_eq.1 before with earlier | here
      · exact agree pair earlier
      · rw [← here] at agree
        exact ⟨fun member =>
            available.mem_of_mem otherAvailable member agree,
          fun member =>
            otherAvailable.mem_of_mem available member agree.symm⟩

/-- Old and new segments have one first-available list of pairs at most. -/
theorem eq (available : rule.IsFirstAvailable old new pairs)
    (otherAvailable : rule.IsFirstAvailable old new others) :
    pairs = others := by
  have permutation : pairs.Perm others := by
    rw [List.perm_ext_iff_of_nodup available.nodup otherAvailable.nodup]
    intro pair
    exact available.agreeBefore otherAvailable (pair.old + 1) pair
      (Nat.lt_succ_self _)
  refine List.Perm.eq_of_pairwise ?_ available.ordered otherAvailable.ordered
    permutation
  intro first second _ _ before after
  exact absurd after (Nat.lt_asymm before)

end IsFirstAvailable

/-! ## The assignment -/

theorem not_joins_of_partner?_eq_none {segment candidate : Segment}
    (choice : rule.partner? segment new = none) (member : candidate ∈ new) :
    ¬ rule.Joins segment candidate := by
  rintro ⟨free, candidateFree, descriptor, other, described, otherDescribed,
    admitted⟩
  simp only [partner?, described, free, Bool.false_eq_true, if_false,
    List.findIdx?_eq_none_iff] at choice
  have refused := choice candidate member
  simp [isPartner, candidateFree, otherDescribed, admitted] at refused

/--
A new segment that an old one could take goes to an old segment before it, or the
old one has a partner that is not later.
-/
theorem exists_pair_of_joins (rule : MatchRule) (position : Nat)
    {old new : List Segment} {offset place : Nat} {first second : Segment}
    (atOld : old[offset]? = some first) (atNew : new[place]? = some second)
    (joined : rule.Joins first second) :
    ∃ pair ∈ (rule.assignFrom position old new).pairs,
      pair.old < position + offset ∧ pair.new = place ∨
        pair.old = position + offset ∧ pair.new ≤ place := by
  induction old generalizing position new offset with
  | nil => cases atOld
  | cons segment rest inductionHypothesis =>
      rw [assignFrom]
      cases choice : rule.partner? segment new with
      | none =>
          cases offset with
          | zero =>
              obtain rfl := Option.some.inj atOld
              exact absurd joined (not_joins_of_partner?_eq_none choice
                (List.mem_of_getElem? atNew))
          | succ offset =>
              have later := inductionHypothesis (position + 1) atOld atNew
              rw [Nat.add_right_comm, Nat.add_assoc] at later
              exact later
      | some taken =>
          have chosen := partner?_eq_some_iff.1 choice
          cases offset with
          | zero =>
              obtain rfl := Option.some.inj atOld
              refine ⟨_, List.mem_cons_self, .inr ⟨rfl, ?_⟩⟩
              by_contra earlier
              exact chosen.2 place second (Nat.lt_of_not_le earlier) atNew
                joined
          | succ offset =>
              by_cases here : taken = place
              · exact ⟨_, List.mem_cons_self, .inl ⟨by simp, here⟩⟩
              · have still : (new.modify taken
                    fun partner => partner.mark.1)[place]? = some second := by
                  rw [List.getElem?_modify_ne _ _ here]
                  exact atNew
                rcases inductionHypothesis (position + 1) atOld still with
                  ⟨pair, member, settled⟩
                rw [Nat.add_right_comm, Nat.add_assoc] at settled
                exact ⟨pair, List.mem_cons_of_mem _ member, settled⟩

theorem isFirstAvailable_assign (rule : MatchRule) (old new : List Segment) :
    rule.IsFirstAvailable old new (rule.assign old new).pairs := by
  have sound : Assignment.Sound rule 0 old new (rule.assign old new) :=
    assignFrom_sound rule 0 old new
  have settles {position place : Nat} {first second : Segment}
      (atOld : old[position]? = some first)
      (atNew : new[place]? = some second) (joined : rule.Joins first second) :
      ∃ pair ∈ (rule.assign old new).pairs,
        pair.old < position ∧ pair.new = place ∨
          pair.old = position ∧ pair.new ≤ place := by
    have settled := exists_pair_of_joins rule 0 atOld atNew joined
    rw [Nat.zero_add] at settled
    exact settled
  refine ⟨sound.ordered, sound.distinct, ?_, ?_, ?_⟩
  · intro pair member
    rcases sound.joined pair member with
      ⟨offset, first, second, same, atOld, atNew, joined⟩
    rw [Nat.zero_add] at same
    exact ⟨first, second, same ▸ atOld, atNew, joined⟩
  · intro pair member first atOld place candidate earlier atPlace joined
    rcases settles atOld atPlace joined with
      ⟨other, otherMember, ⟨before, same⟩ | ⟨same, notLater⟩⟩
    · exact ⟨other, otherMember, before, same⟩
    · -- An old segment has one pair, and that of this one leads further.
      have only := eq_of_old_eq sound.ordered otherMember member same
      rw [only] at notLater
      exact absurd earlier (Nat.not_lt.2 notLater)
  · intro position first atOld unpaired place candidate atPlace joined
    rcases settles atOld atPlace joined with
      ⟨other, otherMember, ⟨before, same⟩ | ⟨same, _⟩⟩
    · exact ⟨other, otherMember, before, same⟩
    · exact absurd same (unpaired other otherMember)

/-- Only segments that were not taken can still form a pair. -/
theorem joins_markIf_iff {first second : Segment}
    {firstTaken secondTaken : Bool} :
    rule.Joins (first.markIf firstTaken) (second.markIf secondTaken) ↔
      firstTaken = false ∧ secondTaken = false ∧ rule.Joins first second := by
  simp only [Joins, Segment.markIf, Bool.or_eq_false_iff]
  constructor
  · rintro ⟨⟨free, oldUntaken⟩, ⟨otherFree, newUntaken⟩, admitted⟩
    exact ⟨oldUntaken, newUntaken, free, otherFree, admitted⟩
  · rintro ⟨oldUntaken, newUntaken, free, otherFree, admitted⟩
    exact ⟨⟨free, oldUntaken⟩, ⟨otherFree, newUntaken⟩, admitted⟩

/--
The pairs of the assignment are the only first-available ones, and no old and new
segment that are left could form a pair.
-/
theorem assign_first_available (rule : MatchRule) (old new : List Segment) :
    (∀ pairs : List MatchPair, rule.IsFirstAvailable old new pairs ↔
      pairs = (rule.assign old new).pairs) ∧
      ∀ first ∈ (rule.assign old new).old,
        ∀ second ∈ (rule.assign old new).new, ¬ rule.Joins first second := by
  have available := isFirstAvailable_assign rule old new
  refine ⟨fun pairs => ⟨fun other => other.eq available,
    fun same => same ▸ available⟩, ?_⟩
  have sound : Assignment.Sound rule 0 old new (rule.assign old new) :=
    assignFrom_sound rule 0 old new
  rw [sound.oldFlags, sound.newFlags]
  intro first firstMember second secondMember joined
  rcases List.mem_mapIdx.1 firstMember with ⟨position, oldBound, rfl⟩
  rcases List.mem_mapIdx.1 secondMember with ⟨place, newBound, rfl⟩
  rw [joins_markIf_iff, Nat.zero_add, List.any_eq_false, List.any_eq_false]
    at joined
  rcases joined with ⟨oldUnpaired, newUnpaired, joined⟩
  have taken := available.leftOut position old[position]
    (List.getElem?_eq_getElem oldBound)
    (fun pair member same => oldUnpaired pair member (beq_iff_eq.2 same))
    place new[place] (List.getElem?_eq_getElem newBound) joined
  rcases taken with ⟨pair, member, _, same⟩
  exact newUnpaired pair member (beq_iff_eq.2 same)

end MatchRule

end ScreenCompare
