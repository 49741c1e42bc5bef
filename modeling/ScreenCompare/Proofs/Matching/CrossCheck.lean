import ScreenCompare.Proofs.Matching.Median
import ScreenCompare.Proofs.Matching.Nearest

/-!
# What the cross-check drops

The cross-check keeps the mutual correspondences and drops the others.  If their
distances are numbers, the mutual correspondences of one direction are those of
the other one turned around (`perm_kept_flip`).

A median over the kept correspondences says nothing about the dropped ones, so
descriptors can match with the cross-check and not without it
(`outlier_needs_crossCheck`).  They match without it too if, in one direction,
at least half of what was dropped is within the limit (`admits_of_crossCheck`).
-/

namespace ScreenCompare

/-- The correspondence seen from its other end. -/
def Correspondence.flip (correspondence : Correspondence) : Correspondence where
  source := correspondence.target
  target := correspondence.source
  distance := correspondence.distance

theorem Correspondence.flip_injective :
    Function.Injective Correspondence.flip := by
  intro first second same
  cases first
  cases second
  simp only [flip, mk.injEq] at same ⊢
  exact ⟨same.2.1, same.1, same.2.2⟩

namespace Descriptor

/-- The descriptor whose rows have one number each. -/
def ofColumn (numbers : List Single) : Descriptor where
  columns := 1
  rows := numbers.map fun number => [number]
  length_row := by simp
  columns_pos := fun _ => Nat.one_pos

theorem eq_of_mem_correspondences
    {sources targets : Descriptor} {first second : Correspondence}
    (firstMember : first ∈ sources.correspondences targets)
    (secondMember : second ∈ sources.correspondences targets)
    (same : first.source = second.source) : first = second := by
  obtain ⟨row, atFirst, firstNearest⟩ := mem_correspondences_iff.1 firstMember
  obtain ⟨other, atSecond, secondNearest⟩ :=
    mem_correspondences_iff.1 secondMember
  rw [← same, atFirst, Option.some.injEq] at atSecond
  rw [← atSecond, firstNearest, Option.some.injEq, Prod.mk.injEq]
    at secondNearest
  cases first
  cases second
  simp_all

theorem distance_of_mem_correspondences
    {sources targets : Descriptor} {correspondence : Correspondence}
    (member : correspondence ∈ sources.correspondences targets) :
    ∃ row candidate, sources.rows[correspondence.source]? = some row ∧
      targets.rows[correspondence.target]? = some candidate ∧
        Single.distance row candidate = correspondence.distance := by
  obtain ⟨row, atSource, nearest⟩ := mem_correspondences_iff.1 member
  obtain ⟨candidate, atTarget, itsDistance⟩ :=
    (isNearest_of_nearest? nearest).found
  exact ⟨row, candidate, atSource, atTarget, itsDistance⟩

/--
A correspondence and the one back are at the same distance, if it is a number.
-/
theorem eq_flip_of_mem_correspondences
    {sources targets : Descriptor} {correspondence back : Correspondence}
    (member : correspondence ∈ sources.correspondences targets)
    (backMember : back ∈ targets.correspondences sources)
    (start : back.source = correspondence.target)
    (finish : back.target = correspondence.source)
    (number : correspondence.distance.IsNumber) :
    back = correspondence.flip := by
  obtain ⟨row, candidate, atSource, atTarget, itsDistance⟩ :=
    distance_of_mem_correspondences member
  obtain ⟨backRow, backCandidate, atBackSource, atBackTarget, backDistance⟩ :=
    distance_of_mem_correspondences backMember
  rw [start, atTarget, Option.some.injEq] at atBackSource
  rw [finish, atSource, Option.some.injEq] at atBackTarget
  rw [← itsDistance] at number
  have same := Single.distance_comm number
  rw [itsDistance, atBackSource, atBackTarget, backDistance] at same
  cases back
  cases correspondence
  simp_all [Correspondence.flip]

end Descriptor

namespace MatchRule

theorem isMutual_iff
    {sources targets : Descriptor} (nonempty : sources.rows ≠ [])
    {correspondence : Correspondence} :
    isMutual (targets.correspondences sources).toArray correspondence = true ↔
      ∃ back ∈ targets.correspondences sources,
        back.source = correspondence.target ∧
          back.target = correspondence.source := by
  rw [isMutual, List.getElem?_toArray]
  cases found :
      (targets.correspondences sources)[correspondence.target]? with
  | none =>
      refine iff_of_false Bool.false_ne_true ?_
      rintro ⟨back, member, start, _⟩
      have atTarget := (Descriptor.getElem?_correspondences_iff nonempty).2
        ⟨member, start⟩
      rw [found] at atTarget
      cases atTarget
  | some back =>
      have known :=
        (Descriptor.getElem?_correspondences_iff nonempty).1 found
      simp only [beq_iff_eq]
      constructor
      · intro finish
        exact ⟨back, known.1, known.2, finish⟩
      · rintro ⟨other, member, start, finish⟩
        rw [Descriptor.eq_of_mem_correspondences known.1 member
          (known.2.trans start.symm)]
        exact finish

/-- The correspondences that the cross-check keeps. -/
def kept (sources targets : Descriptor) : List Correspondence :=
  (sources.correspondences targets).filter
    (isMutual (targets.correspondences sources).toArray)

/-- The correspondences that the cross-check drops. -/
def dropped (sources targets : Descriptor) : List Correspondence :=
  (sources.correspondences targets).filter fun correspondence =>
    !isMutual (targets.correspondences sources).toArray correspondence

theorem mem_kept_iff
    {sources targets : Descriptor} (nonempty : sources.rows ≠ [])
    {correspondence : Correspondence} :
    correspondence ∈ kept sources targets ↔
      correspondence ∈ sources.correspondences targets ∧
        ∃ back ∈ targets.correspondences sources,
          back.source = correspondence.target ∧
            back.target = correspondence.source := by
  rw [kept, List.mem_filter, isMutual_iff nonempty]

theorem perm_kept_append_dropped (sources targets : Descriptor) :
    (kept sources targets ++ dropped sources targets).Perm
      (sources.correspondences targets) :=
  List.filter_append_perm _ _

theorem nodup_kept
    {sources targets : Descriptor} (nonempty : targets.rows ≠ []) :
    (kept sources targets).Nodup := by
  apply List.Nodup.filter
  apply List.Nodup.of_map Correspondence.source
  rw [Descriptor.map_source_correspondences nonempty]
  exact List.nodup_range

/--
The mutual correspondences of both directions are the same, turned around.
-/
theorem perm_kept_flip
    {sources targets : Descriptor} (sourcesNonempty : sources.rows ≠ [])
    (targetsNonempty : targets.rows ≠ [])
    (numbers : ∀ correspondence ∈ kept sources targets,
      correspondence.distance.IsNumber) :
    ((kept sources targets).map Correspondence.flip).Perm
      (kept targets sources) := by
  rw [List.perm_ext_iff_of_nodup
    ((nodup_kept targetsNonempty).map Correspondence.flip_injective)
    (nodup_kept sourcesNonempty)]
  intro back
  rw [List.mem_map, mem_kept_iff targetsNonempty]
  constructor
  · rintro ⟨correspondence, isKept, rfl⟩
    have number := numbers correspondence isKept
    obtain ⟨member, back, backMember, start, finish⟩ :=
      (mem_kept_iff sourcesNonempty).1 isKept
    rw [← Descriptor.eq_flip_of_mem_correspondences member backMember start
      finish number]
    exact ⟨backMember, correspondence, member, finish.symm, start.symm⟩
  · rintro ⟨backMember, correspondence, member, start, finish⟩
    have isKept : correspondence ∈ kept sources targets :=
      (mem_kept_iff sourcesNonempty).2
        ⟨member, back, backMember, finish.symm, start.symm⟩
    exact ⟨correspondence, isKept,
      (Descriptor.eq_flip_of_mem_correspondences member backMember finish.symm
        start.symm (numbers correspondence isKept)).symm⟩

/-! ## Acceptance -/

theorem admits_iff {rule : MatchRule} {old new : Descriptor} :
    rule.admits old new = true ↔ old.rows ≠ [] ∧ new.rows ≠ [] ∧
      if rule.crossCheck = true then
        rule.passes ((kept old new).map Correspondence.distance) = true
      else
        rule.passes ((old.correspondences new).map
            Correspondence.distance) = true ∨
          rule.passes ((new.correspondences old).map
            Correspondence.distance) = true := by
  rw [admits, Descriptor.isEmpty, Descriptor.isEmpty]
  split
  · next empty =>
      rw [Bool.or_eq_true, List.isEmpty_iff, List.isEmpty_iff] at empty
      refine iff_of_false Bool.false_ne_true ?_
      rintro ⟨oldNonempty, newNonempty, _⟩
      exact empty.elim oldNonempty newNonempty
  · next nonempty =>
      rw [Bool.or_eq_true, List.isEmpty_iff, List.isEmpty_iff, not_or]
        at nonempty
      rw [← and_assoc, and_iff_right nonempty]
      split
      · rfl
      · rw [Bool.or_eq_true]

/--
Both descriptors share a row 0.  The nearest row of 2 is 0, and that of 5 is 2,
at a distance of 3, so neither correspondence is mutual and the cross-check drops
both.  Without it they are the upper of two distances, and too far in both
directions.
-/
theorem outlier_needs_crossCheck :
    let old : Descriptor := .ofColumn [Single.zero, { bits := 0x40000000 }]
    let new : Descriptor := .ofColumn [Single.zero, { bits := 0x40a00000 }]
    (standard true).admits old new = true ∧
      (standard false).admits old new = false := by
  intro old new
  rw [Bool.eq_false_iff, Ne, admits_iff, admits_iff]
  simp only [passes_iff]
  decide +kernel

/--
Of the correspondences that the cross-check drops in one direction, at most half
exceed the limit.
-/
def DroppedWithin (rule : MatchRule) (sources targets : Descriptor) : Prop :=
  (dropped sources targets).countP (fun correspondence =>
      !rule.allows correspondence.distance) ≤
    (dropped sources targets).countP fun correspondence =>
      rule.allows correspondence.distance

instance (rule : MatchRule) (sources targets : Descriptor) :
    Decidable (rule.DroppedWithin sources targets) :=
  inferInstanceAs (Decidable (_ ≤ _))

/--
Distances that pass still do after adding some of which at most half exceed the
limit.
-/
theorem passes_of_perm_append
    {rule : MatchRule} {before added distances : List Single}
    (permutation : (before ++ added).Perm distances)
    (within : rule.passes before = true)
    (balanced : added.countP (fun distance => !rule.allows distance) ≤
      added.countP rule.allows) : rule.passes distances = true := by
  have comes : added.countP Single.comesFirst ≤
      added.countP fun distance => !rule.allows distance := by
    apply List.countP_mono_left
    intro distance _ first
    rw [allows_eq_false_of_comesFirst distance first]
    rfl
  have total := List.length_eq_countP_add_countP rule.allows (l := added)
  simp only [Bool.not_eq_true, Bool.decide_eq_false] at total
  rw [passes_iff] at within ⊢
  simp only [← permutation.countP_eq, ← permutation.length_eq,
    List.countP_append, List.length_append]
  omega

theorem passes_correspondences
    {rule : MatchRule} {sources targets : Descriptor}
    (within : rule.passes ((kept sources targets).map
      Correspondence.distance) = true)
    (balanced : rule.DroppedWithin sources targets) :
    rule.passes ((sources.correspondences targets).map
      Correspondence.distance) = true := by
  have permutation := (perm_kept_append_dropped sources targets).map
    Correspondence.distance
  rw [List.map_append] at permutation
  apply passes_of_perm_append permutation within
  rw [List.countP_map, List.countP_map]
  exact balanced

/--
Descriptors that match with the cross-check match without it, if at most half of
what it drops in one direction exceeds the limit.  In the direction back the
mutual distances have to be numbers.
-/
theorem admits_of_crossCheck
    (rule : MatchRule) (old new : Descriptor)
    (accepted : { rule with crossCheck := true }.admits old new = true)
    (within : rule.DroppedWithin old new ∨ rule.DroppedWithin new old ∧
      ∀ correspondence ∈ kept old new, correspondence.distance.IsNumber) :
    { rule with crossCheck := false }.admits old new = true := by
  obtain ⟨oldNonempty, newNonempty, passed⟩ := admits_iff.1 accepted
  rw [if_pos rfl] at passed
  refine admits_iff.2 ⟨oldNonempty, newNonempty, ?_⟩
  rw [if_neg Bool.false_ne_true]
  rcases within with forward | ⟨backward, numbers⟩
  · exact .inl (passes_correspondences passed forward)
  -- The mutual distances back are the same ones, in another order.
  · right
    refine passes_correspondences ?_ backward
    have permutation := (perm_kept_flip oldNonempty newNonempty
      numbers).map Correspondence.distance
    rw [List.map_map] at permutation
    have same := permutation.countP_eq
    rw [passes_iff] at passed ⊢
    simp only [← same, ← permutation.length_eq]
    exact passed

/--
The rows 2 and 1 are dropped, but both are at most 1 away from their nearest one.
-/
theorem near_rows_pass_without_crossCheck :
    let old : Descriptor := .ofColumn [Single.zero, { bits := 0x40000000 }]
    let new : Descriptor := .ofColumn [Single.zero, Single.one]
    (standard true).admits old new = true ∧
      (standard true).DroppedWithin old new ∧
      (standard false).admits old new = true := by
  intro old new
  have accepted : (standard true).admits old new = true := by
    rw [admits_iff]
    simp only [passes_iff]
    decide +kernel
  have within : (standard true).DroppedWithin old new := by decide +kernel
  exact ⟨accepted, within,
    admits_of_crossCheck (standard true) old new accepted (.inl within)⟩

end MatchRule

end ScreenCompare
