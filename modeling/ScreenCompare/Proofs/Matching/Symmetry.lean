import ScreenCompare.Proofs.Matching.Unchanged

/-!
# Matching does not depend on the order

Without the cross-check, the correspondences of both directions are judged, so
two descriptors can change places.  With it, only those from the first to the
second descriptor are kept, but turned around they are those that the other
direction keeps, and the median does not see in which order they come
(`admits_comm`).
-/

namespace ScreenCompare.MatchRule

variable {rule : MatchRule} {old new : Descriptor}

theorem map_distance_flip (correspondences : List Correspondence) :
    (correspondences.map Correspondence.flip).map Correspondence.distance =
      correspondences.map Correspondence.distance := by
  rw [List.map_map]
  rfl

/--
What the cross-check keeps passes in one direction if it does in the other.
-/
theorem passes_kept_comm (oldNonempty : old.rows ≠ [])
    (newNonempty : new.rows ≠ [])
    (numbers : ∀ correspondence ∈ kept old new,
      correspondence.distance.IsNumber) :
    rule.passes ((kept old new).map Correspondence.distance) =
      rule.passes ((kept new old).map Correspondence.distance) := by
  have permutation := (perm_kept_flip oldNonempty newNonempty
    numbers).map Correspondence.distance
  rw [map_distance_flip] at permutation
  exact passes_eq_of_perm permutation

/--
Two descriptors of finite numbers match in one order if they match in the other.
-/
theorem admits_comm (rule : MatchRule) {old new : Descriptor}
    (oldFinite : old.IsFinite) (newFinite : new.IsFinite) :
    rule.admits old new = rule.admits new old := by
  rw [Bool.eq_iff_iff, admits_iff, admits_iff, and_left_comm]
  refine and_congr_right fun newNonempty =>
    and_congr_right fun oldNonempty => ?_
  split
  · rw [passes_kept_comm oldNonempty newNonempty fun _ member =>
      Descriptor.isNumber_of_mem_correspondences oldFinite newFinite
        (List.mem_filter.1 member).1]
  · exact or_comm

/--
With the cross-check, descriptors that repeat rows in different numbers match in
both orders.
-/
theorem repeated_rows_match_both_ways :
    let old : Descriptor := .ofColumn [Single.zero, Single.zero, Single.one]
    let new : Descriptor :=
      .ofColumn [Single.one, { bits := 0x80000000 }, { bits := 0x40a00000 }]
    old.IsFinite ∧ new.IsFinite ∧ (standard true).admits old new = true ∧
      (standard true).admits new old = true := by
  intro old new
  have oldFinite : old.IsFinite := by decide +kernel
  have newFinite : new.IsFinite := by decide +kernel
  have accepted : (standard true).admits old new = true := by
    rw [admits_iff]
    simp only [passes_iff]
    decide +kernel
  exact ⟨oldFinite, newFinite, accepted,
    admits_comm (standard true) oldFinite newFinite ▸ accepted⟩

end ScreenCompare.MatchRule
