import ScreenCompare.Proofs.Matching.Assignment
import ScreenCompare.Proofs.Matching.CrossCheck

/-!
# Unchanged segments are matched to themselves

A nonempty descriptor of finite numbers matches a copy of itself, as long as the
limit is not below zero: each row is at no distance from its copy, so its nearest
row is not farther, and the first row and its copy are nearest to each other
because no row comes before them (`IsCopy.admits`).

If the new segments carry the descriptors of the old ones, then at each position
the new segments before it are taken or have no descriptor, and the copy is the
first one that is free.  So the pairs lie on the diagonal (`assign_unchanged`).
-/

namespace ScreenCompare

namespace Descriptor

/-- All numbers of the descriptor are finite. -/
def IsFinite (descriptor : Descriptor) : Prop :=
  ∀ row ∈ descriptor.rows, Single.IsFiniteRow row

instance (descriptor : Descriptor) : Decidable descriptor.IsFinite :=
  inferInstanceAs (Decidable (∀ row ∈ descriptor.rows, ∀ number ∈ row, _ = _))

/--
Two nonempty descriptors of finite numbers have equal rows in the same order.
-/
structure IsCopy (old new : Descriptor) : Prop where
  nonempty : old.rows ≠ []
  oldFinite : old.IsFinite
  newFinite : new.IsFinite
  equal : List.Forall₂ (List.Forall₂ Single.Equals) old.rows new.rows

instance (old new : Descriptor) : Decidable (IsCopy old new) :=
  decidable_of_iff
    (old.rows ≠ [] ∧ old.IsFinite ∧ new.IsFinite ∧
      List.Forall₂ (List.Forall₂ Single.Equals) old.rows new.rows)
    ⟨fun ⟨nonempty, oldFinite, newFinite, equal⟩ =>
        ⟨nonempty, oldFinite, newFinite, equal⟩,
      fun copy => ⟨copy.nonempty, copy.oldFinite, copy.newFinite, copy.equal⟩⟩

theorem isNumber_distance {sources targets : Descriptor}
    (sourcesFinite : sources.IsFinite) (targetsFinite : targets.IsFinite)
    {row : List Single} (member : row ∈ sources.rows) :
    ∀ candidate ∈ targets.rows, (Single.distance row candidate).IsNumber := by
  intro candidate candidateMember
  exact (Single.distance_nonneg (sourcesFinite row member)
    (targetsFinite candidate candidateMember)).1

theorem isNumber_of_mem_correspondences {sources targets : Descriptor}
    (sourcesFinite : sources.IsFinite) (targetsFinite : targets.IsFinite)
    {correspondence : Correspondence}
    (member : correspondence ∈ sources.correspondences targets) :
    correspondence.distance.IsNumber := by
  obtain ⟨row, candidate, atSource, atTarget, itsDistance⟩ :=
    distance_of_mem_correspondences member
  rw [← itsDistance]
  exact isNumber_distance sourcesFinite targetsFinite
    (List.mem_of_getElem? atSource) candidate (List.mem_of_getElem? atTarget)

/-- First rows at no distance from each other correspond. -/
theorem target_eq_zero {sources targets : Descriptor}
    (sourcesFinite : sources.IsFinite) (targetsFinite : targets.IsFinite)
    {row candidate : List Single} (atRow : sources.rows[0]? = some row)
    (atCandidate : targets.rows[0]? = some candidate)
    (flat : (Single.distance row candidate).height = 0)
    {correspondence : Correspondence}
    (member : correspondence ∈ sources.correspondences targets)
    (start : correspondence.source = 0) : correspondence.target = 0 := by
  obtain ⟨same, atSource, nearest⟩ := mem_correspondences_iff.1 member
  rw [start, atRow, Option.some.injEq] at atSource
  subst same
  have isNearest := isNearest_of_nearest? nearest
  obtain ⟨found, atFound, itsDistance⟩ := isNearest.found
  have rowMember := List.mem_of_getElem? atRow
  have numbers := isNumber_distance sourcesFinite targetsFinite rowMember
  have above := Single.distance_nonneg (sourcesFinite row rowMember)
    (targetsFinite found (List.mem_of_getElem? atFound))
  by_contra later
  apply isNearest.first numbers 0 candidate (Nat.pos_of_ne_zero later)
    atCandidate
  rw [← itsDistance, Single.value_le_iff, flat]
  exact ⟨numbers candidate (List.mem_of_getElem? atCandidate), above⟩

namespace IsCopy

variable {old new : Descriptor}

/-- A row has a copy at the same position, at no distance. -/
theorem exists_copy (copy : IsCopy old new) {position : Nat}
    {row : List Single} (atOld : old.rows[position]? = some row) :
    ∃ other, new.rows[position]? = some other ∧
      (Single.distance row other).IsNumber ∧
        (Single.distance row other).height = 0 := by
  obtain ⟨lengths, equal⟩ := List.forall₂_iff_get.1 copy.equal
  obtain ⟨bound, rfl⟩ := List.getElem?_eq_some_iff.1 atOld
  have newBound : position < new.rows.length := lengths ▸ bound
  exact ⟨new.rows[position], List.getElem?_eq_getElem newBound,
    Single.distance_of_equals (copy.oldFinite _ (List.getElem_mem bound))
      (equal position bound newBound)⟩

theorem exists_first_copy (copy : IsCopy old new) :
    ∃ row other, old.rows[0]? = some row ∧ new.rows[0]? = some other ∧
      (Single.distance row other).IsNumber ∧
        (Single.distance row other).height = 0 := by
  have bound : 0 < old.rows.length := List.length_pos_iff.2 copy.nonempty
  have atFirst : old.rows[0]? = some old.rows[0] :=
    List.getElem?_eq_getElem bound
  obtain ⟨other, atOther, flat⟩ := copy.exists_copy atFirst
  exact ⟨old.rows[0], other, atFirst, atOther, flat⟩

theorem newNonempty (copy : IsCopy old new) : new.rows ≠ [] := by
  obtain ⟨_, other, _, atOther, _⟩ := copy.exists_first_copy
  exact List.ne_nil_of_mem (List.mem_of_getElem? atOther)

theorem allows (copy : IsCopy old new) {rule : MatchRule}
    (limit : Single.zero.value ≤ rule.maxDistance.value)
    {correspondence : Correspondence}
    (member : correspondence ∈ old.correspondences new) :
    rule.allows correspondence.distance = true := by
  obtain ⟨row, atSource, nearest⟩ := mem_correspondences_iff.1 member
  obtain ⟨other, atOther, _, flat⟩ := copy.exists_copy atSource
  have below := (isNearest_of_nearest? nearest).minimal
    (isNumber_distance copy.oldFinite copy.newFinite
      (List.mem_of_getElem? atSource))
    other (List.mem_of_getElem? atOther)
  rw [Single.value_le_iff] at limit below
  have zero : Single.zero.height = 0 := rfl
  exact decide_eq_true (Single.value_le_iff.2
    ⟨below.1, limit.2.1, by omega⟩)

/-- The first row and its copy are nearest to each other. -/
theorem kept_ne_nil (copy : IsCopy old new) : MatchRule.kept old new ≠ [] := by
  obtain ⟨row, other, atRow, atOther, number, flat⟩ := copy.exists_first_copy
  obtain ⟨correspondence, member, start⟩ :=
    exists_correspondence copy.newNonempty atRow
  obtain ⟨back, backMember, backStart⟩ :=
    exists_correspondence copy.nonempty atOther
  have finish := target_eq_zero copy.oldFinite copy.newFinite atRow atOther
    flat member start
  rw [Single.distance_comm number] at flat
  have backFinish := target_eq_zero copy.newFinite copy.oldFinite atOther
    atRow flat backMember backStart
  apply List.ne_nil_of_mem
  exact (MatchRule.mem_kept_iff copy.nonempty).2
    ⟨member, back, backMember, backStart.trans finish.symm,
      backFinish.trans start.symm⟩

/-- A descriptor matches its copy. -/
theorem admits (copy : IsCopy old new) {rule : MatchRule}
    (limit : Single.zero.value ≤ rule.maxDistance.value) :
    rule.admits old new = true := by
  have passes (chosen : List Correspondence) (some : chosen ≠ [])
      (among : ∀ correspondence ∈ chosen,
        correspondence ∈ old.correspondences new) :
      rule.passes (chosen.map Correspondence.distance) = true := by
    apply MatchRule.passes_of_forall_allows
    · exact fun none => some (List.map_eq_nil_iff.1 none)
    · intro distance member
      obtain ⟨correspondence, isChosen, rfl⟩ := List.mem_map.1 member
      exact copy.allows limit (among correspondence isChosen)
  have kept : ∀ correspondence ∈ MatchRule.kept old new,
      correspondence ∈ old.correspondences new :=
    fun _ member => (List.mem_filter.1 member).1
  refine MatchRule.admits_iff.2 ⟨copy.nonempty, copy.newNonempty, ?_⟩
  split
  · exact passes _ copy.kept_ne_nil kept
  · refine .inl (passes _ ?_ fun _ member => member)
    obtain ⟨correspondence, member⟩ :=
      List.exists_mem_of_ne_nil _ copy.kept_ne_nil
    exact List.ne_nil_of_mem (kept correspondence member)

end IsCopy

end Descriptor

namespace Segment

/-- A free segment of one cell with a given descriptor. -/
def bare (side : Side) (descriptor : Option Descriptor) : Segment where
  side := side
  area := { left := 0, top := 0, width := 1, height := 1 }
  crop := .filled 1 1 0
  descriptor := descriptor
  matched := false

/--
Two free segments both lack a descriptor, or one has a copy of the other's.
-/
structure IsUnchanged (old new : Segment) : Prop where
  oldFree : old.matched = false
  newFree : new.matched = false
  descriptors : Option.Rel Descriptor.IsCopy old.descriptor new.descriptor

namespace IsUnchanged

variable {old new : Segment}

theorem descriptor_eq_none (unchanged : old.IsUnchanged new)
    (nothing : old.descriptor = none) : new.descriptor = none := by
  have related := unchanged.descriptors
  rw [nothing] at related
  cases other : new.descriptor with
  | none => rfl
  | some descriptor =>
      rw [other] at related
      cases related

theorem exists_copy (unchanged : old.IsUnchanged new)
    {descriptor : Descriptor} (described : old.descriptor = some descriptor) :
    ∃ other, new.descriptor = some other ∧ descriptor.IsCopy other := by
  have related := unchanged.descriptors
  rw [described] at related
  cases other : new.descriptor with
  | none =>
      rw [other] at related
      cases related
  | some otherDescriptor =>
      rw [other] at related
      cases related with
      | some copy => exact ⟨otherDescriptor, rfl, copy⟩

end IsUnchanged

/-- The segment takes no part in matching. -/
def IsOut (segment : Segment) : Prop :=
  segment.matched = true ∨ segment.descriptor = none

end Segment

namespace MatchRule

variable {rule : MatchRule}

theorem not_joins_of_isOut {old new : Segment} (out : new.IsOut) :
    ¬ rule.Joins old new := by
  rintro ⟨_, free, _, descriptor, _, described, _⟩
  rcases out with taken | nothing
  · rw [taken] at free
    cases free
  · rw [nothing] at described
    cases described

/--
An old segment takes its copy if all new segments before the copy are out.
-/
theorem partner?_of_isUnchanged {old new : Segment}
    (limit : Single.zero.value ≤ rule.maxDistance.value)
    (unchanged : old.IsUnchanged new) {descriptor : Descriptor}
    (described : old.descriptor = some descriptor) {before : List Segment}
    (out : ∀ segment ∈ before, segment.IsOut) (after : List Segment) :
    rule.partner? old (before ++ new :: after) = some before.length := by
  obtain ⟨other, otherDescribed, copy⟩ := unchanged.exists_copy described
  have joined : rule.Joins old new :=
    ⟨unchanged.oldFree, unchanged.newFree, descriptor, other, described,
      otherDescribed, copy.admits limit⟩
  have found : (before ++ new :: after)[before.length]? = some new := by
    rw [List.getElem?_append_right (Nat.le_refl _), Nat.sub_self]
    rfl
  refine partner?_eq_some_iff.2 ⟨⟨new, found, joined⟩, ?_⟩
  intro earlier candidate bound atEarlier
  rw [List.getElem?_append_left bound] at atEarlier
  exact not_joins_of_isOut (out candidate (List.mem_of_getElem? atEarlier))

theorem modify_append_cons {α : Type} (change : α → α) (before after : List α)
    (entry : α) :
    (before ++ entry :: after).modify before.length change =
      before ++ change entry :: after := by
  induction before with
  | nil => rfl
  | cons head before inductionHypothesis =>
      rw [List.cons_append, List.length_cons, List.modify_succ_cons,
        inductionHypothesis]
      rfl

/--
The old segments from a position on take their copies, if the new segments
before that position are out.
-/
theorem assignFrom_unchanged {before old new : List Segment}
    (limit : Single.zero.value ≤ rule.maxDistance.value)
    (out : ∀ segment ∈ before, segment.IsOut)
    (unchanged : List.Forall₂ Segment.IsUnchanged old new) :
    (rule.assignFrom before.length old (before ++ new)).pairs =
      (old.findIdxs (fun segment => segment.descriptor.isSome)
        before.length).map fun position =>
          { old := position, new := position } := by
  induction unchanged generalizing before with
  | nil => rfl
  | @cons segment other old new unchanged _ inductionHypothesis =>
      -- Whether it is left out or taken, the next new segment joins those before.
      have step {next : Segment} (nextOut : next.IsOut) :=
        @inductionHypothesis (before ++ [next])
          (List.forall_mem_append.2 ⟨out, List.forall_mem_singleton.2 nextOut⟩)
      simp only [List.length_append, List.append_assoc, List.singleton_append,
        List.length_singleton] at step
      rw [assignFrom, List.findIdxs_cons]
      cases described : segment.descriptor with
      | none =>
          have choice : rule.partner? segment (before ++ other :: new) = none :=
            by rw [partner?, described]
          simp only [choice]
          rw [step (.inr (unchanged.descriptor_eq_none described))]
          rfl
      | some descriptor =>
          have choice := partner?_of_isUnchanged limit unchanged described out
            new
          simp only [choice, modify_append_cons]
          rw [step (.inl rfl)]
          rfl

/--
If the new segments carry copies of the descriptors of the old ones and all are
free, the pairs are those of each position that has a descriptor with itself.
-/
theorem assign_unchanged (rule : MatchRule) (old new : List Segment)
    (limit : Single.zero.value ≤ rule.maxDistance.value)
    (unchanged : List.Forall₂ Segment.IsUnchanged old new) :
    (rule.assign old new).pairs =
      (old.findIdxs fun segment => segment.descriptor.isSome).map
        fun position => { old := position, new := position } :=
  @assignFrom_unchanged rule [] old new limit (by simp) unchanged

/--
With the cross-check, two segments with the same rows keep their places, also
where a zero has become a minus zero, and one without a descriptor is left out.
-/
theorem repeated_segments_keep_their_places :
    let rows : Descriptor := .ofColumn [Single.zero, Single.one, Single.zero]
    let copied : Descriptor :=
      .ofColumn [{ bits := 0x80000000 }, Single.one, Single.zero]
    let old : List Segment := [.bare .old rows, .bare .old none, .bare .old rows]
    let new : List Segment :=
      [.bare .new rows, .bare .new none, .bare .new copied]
    Single.zero.value ≤ (standard true).maxDistance.value ∧
      List.Forall₂ Segment.IsUnchanged old new ∧
      ((standard true).assign old new).pairs =
        [{ old := 0, new := 0 }, { old := 2, new := 2 }] := by
  intro rows copied old new
  have limit : Single.zero.value ≤ (standard true).maxDistance.value := by
    decide +kernel
  have same : rows.IsCopy rows := by decide +kernel
  have copy : rows.IsCopy copied := by decide +kernel
  have unchanged : List.Forall₂ Segment.IsUnchanged old new :=
    .cons ⟨rfl, rfl, .some same⟩ (.cons ⟨rfl, rfl, .none⟩
      (.cons ⟨rfl, rfl, .some copy⟩ .nil))
  exact ⟨limit, unchanged, assign_unchanged (standard true) old new limit
    unchanged⟩

end MatchRule

end ScreenCompare
