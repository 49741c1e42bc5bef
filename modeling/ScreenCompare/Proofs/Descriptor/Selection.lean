import Mathlib.Data.List.Sort
import ScreenCompare.Descriptor
import ScreenCompare.Proofs.Raster

/-!
# Which keypoints are described

The corners of a picture are listed in row order, no two at one cell.  Sorting
the eligible ones by strength, cutting the list off and sorting it by rows again
leaves a sublist of them (`sublist_kept`).  A corner that was cut off came later
in the order of strength than all that were not, so it is weaker, or as strong
and later in row order (`outranks_of_not_mem_kept`).

No kept corner is too close to an edge to be described, so the descriptor of a
crop has one row for each of them (`ofCrop?_describes_strongest`).
-/

namespace ScreenCompare

namespace Keypoint

variable {gray : GrayPicture} {keypoint first second : Keypoint}

/-! ## Corners in row order -/

theorem point_of_at? {point : Point} (found : at? gray point = some keypoint) :
    keypoint.point = point := by
  rw [at?, Option.ite_none_right_eq_some, Option.some.injEq] at found
  rw [← found.2]

/-- One corner comes before another in row order. -/
def Precedes (first second : Keypoint) : Prop :=
  first.point.Before second.point

theorem pairwise_corners (gray : GrayPicture) :
    (corners gray).Pairwise Precedes := by
  rw [corners, List.pairwise_flatMap]
  constructor
  · intro y _
    rw [List.pairwise_filterMap]
    apply (List.pairwise_lt_range' 1).imp
    intro left right ordered first isFirst second isSecond
    rw [Precedes, point_of_at? isFirst, point_of_at? isSecond]
    exact .inr ⟨rfl, ordered⟩
  · apply (List.pairwise_lt_range' 1).imp
    intro upper lower above first firstMember second secondMember
    obtain ⟨_, _, isFirst⟩ := List.mem_filterMap.1 firstMember
    obtain ⟨_, _, isSecond⟩ := List.mem_filterMap.1 secondMember
    rw [Precedes, point_of_at? isFirst, point_of_at? isSecond]
    exact .inl above

/--
The eligible corners are those at cells with room for a patch around them.
-/
theorem mem_eligibleCorners_iff :
    keypoint ∈ eligibleCorners gray ↔
      at? gray keypoint.point = some keypoint ∧ keypoint.Eligible gray := by
  simp only [eligibleCorners, corners, List.mem_filter, List.mem_flatMap,
    List.mem_filterMap, List.mem_range'_1, decide_eq_true_eq]
  apply and_congr_left
  intro eligible
  constructor
  · rintro ⟨y, _, x, _, found⟩
    rw [point_of_at? found]
    exact found
  · intro found
    unfold Eligible patchRadius at eligible
    exact ⟨keypoint.point.y, by omega, keypoint.point.x, by omega, found⟩

theorem eq_of_mem_eligibleCorners (isFirst : first ∈ eligibleCorners gray)
    (isSecond : second ∈ eligibleCorners gray)
    (samePoint : first.point = second.point) : first = second := by
  have found := (mem_eligibleCorners_iff.1 isFirst).1
  rw [samePoint, (mem_eligibleCorners_iff.1 isSecond).1] at found
  exact (Option.some.inj found).symm

theorem pairwise_eligibleCorners (gray : GrayPicture) :
    (eligibleCorners gray).Pairwise Precedes :=
  (pairwise_corners gray).filter _

theorem nodup_eligibleCorners (gray : GrayPicture) :
    (eligibleCorners gray).Nodup := by
  apply (pairwise_eligibleCorners gray).imp
  rintro corner _ precedes rfl
  exact Point.Before.irrefl _ precedes

/-! ## The two orders -/

theorem rowOrder_iff :
    rowOrder first second = true ↔
      first.point = second.point ∨ first.Precedes second := by
  obtain ⟨⟨x, y⟩, strength⟩ := first
  obtain ⟨⟨otherX, otherY⟩, otherStrength⟩ := second
  simp only [rowOrder, decide_eq_true_eq, Precedes, Point.Before,
    Point.mk.injEq]
  omega

theorem strengthOrder_iff :
    strengthOrder first second = true ↔
      second.strength < first.strength ∨
        first.strength = second.strength ∧ rowOrder first second = true := by
  simp [strengthOrder]

theorem rowOrder_trans {third : Keypoint}
    (left : rowOrder first second = true)
    (right : rowOrder second third = true) : rowOrder first third = true := by
  simp only [rowOrder, decide_eq_true_eq] at *
  omega

theorem rowOrder_total (first second : Keypoint) :
    (rowOrder first second || rowOrder second first) = true := by
  simp only [rowOrder, Bool.or_eq_true, decide_eq_true_eq]
  omega

theorem pairwise_sorted_rowOrder (keypoints : List Keypoint) :
    (keypoints.mergeSort rowOrder).Pairwise fun first second =>
      rowOrder first second = true := by
  apply List.pairwise_mergeSort
  · intro first second third
    exact rowOrder_trans
  · exact rowOrder_total

theorem pairwise_sorted_strengthOrder (keypoints : List Keypoint) :
    (keypoints.mergeSort strengthOrder).Pairwise fun first second =>
      strengthOrder first second = true := by
  apply List.pairwise_mergeSort
  · intro first second third left right
    rw [strengthOrder_iff] at *
    rcases left with left | ⟨left, leftRow⟩
    · rcases right with right | ⟨right, _⟩ <;> exact .inl (by omega)
    · rcases right with right | ⟨right, rightRow⟩
      · exact .inl (by omega)
      · exact .inr ⟨by omega, rowOrder_trans leftRow rightRow⟩
  · intro first second
    rw [Bool.or_eq_true, strengthOrder_iff, strengthOrder_iff]
    have rows := rowOrder_total first second
    rw [Bool.or_eq_true] at rows
    rcases Nat.lt_trichotomy first.strength second.strength with
      weaker | same | stronger
    · exact .inr (.inl weaker)
    · exact rows.imp (fun row => .inr ⟨same, row⟩)
        fun row => .inr ⟨same.symm, row⟩
    · exact .inl (.inl stronger)

/-! ## Kept corners -/

/-- The eligible corners, strongest first. -/
def byStrength (gray : GrayPicture) : List Keypoint :=
  (eligibleCorners gray).mergeSort strengthOrder

theorem perm_byStrength (gray : GrayPicture) :
    (byStrength gray).Perm (eligibleCorners gray) :=
  List.mergeSort_perm _ _

theorem perm_kept (gray : GrayPicture) :
    (kept gray).Perm ((byStrength gray).take keptAtMost) :=
  List.mergeSort_perm _ _

theorem subperm_kept (gray : GrayPicture) :
    (kept gray).Subperm (eligibleCorners gray) :=
  (perm_kept gray).subperm.trans
    ((List.take_sublist _ _).subperm.trans (perm_byStrength gray).subperm)

theorem length_kept (gray : GrayPicture) :
    (kept gray).length = min keptAtMost (eligibleCorners gray).length := by
  rw [(perm_kept gray).length_eq, List.length_take,
    (perm_byStrength gray).length_eq]

theorem pairwise_kept (gray : GrayPicture) :
    (kept gray).Pairwise Precedes := by
  let Apart (first second : Keypoint) : Prop := first.point ≠ second.point
  have symmetric {first second : Keypoint} (apart : Apart first second) :
      Apart second first := Ne.symm apart
  have eligibleApart : (eligibleCorners gray).Pairwise Apart := by
    apply (pairwise_eligibleCorners gray).imp
    intro first second precedes same
    rw [Precedes, same] at precedes
    exact Point.Before.irrefl _ precedes
  have apart : (kept gray).Pairwise Apart :=
    ((perm_kept gray).pairwise_iff symmetric).2
      ((((perm_byStrength gray).pairwise_iff symmetric).2 eligibleApart).sublist
        (List.take_sublist _ _))
  have rows : (kept gray).Pairwise fun first second =>
      rowOrder first second = true := pairwise_sorted_rowOrder _
  apply (rows.and apart).imp
  rintro first second ⟨ordered, different⟩
  exact (rowOrder_iff.1 ordered).resolve_left different

/-- The kept corners are some of the eligible ones, in their order. -/
theorem sublist_kept (gray : GrayPicture) :
    (kept gray).Sublist (eligibleCorners gray) := by
  have asymmetric : Std.Antisymm Precedes :=
    ⟨fun _ _ before after => absurd after before.asymm⟩
  exact List.sublist_of_subperm_of_pairwise (subperm_kept gray)
    (pairwise_kept gray) (pairwise_eligibleCorners gray)

/--
An eligible corner that is not kept is weaker than every kept one, or equally
strong and later in row order.
-/
theorem outranks_of_not_mem_kept (isKept : first ∈ kept gray)
    (eligible : second ∈ eligibleCorners gray)
    (dropped : second ∉ kept gray) :
    second.strength < first.strength ∨
      second.strength = first.strength ∧ first.Precedes second := by
  have sorted : (byStrength gray).Pairwise fun first second =>
      strengthOrder first second = true := pairwise_sorted_strengthOrder _
  have listed := (perm_byStrength gray).mem_iff.2 eligible
  rw [← List.take_append_drop keptAtMost (byStrength gray)] at sorted listed
  rw [List.pairwise_append] at sorted
  have isStrong := (perm_kept gray).mem_iff.1 isKept
  have isRest := (List.mem_append.1 listed).resolve_left fun member =>
    dropped ((perm_kept gray).mem_iff.2 member)
  have ordered := sorted.2.2 first isStrong second isRest
  rw [strengthOrder_iff, rowOrder_iff] at ordered
  rcases ordered with weaker | ⟨same, samePoint | precedes⟩
  · exact .inl weaker
  · have equal := eq_of_mem_eligibleCorners
      ((subperm_kept gray).subset isKept) eligible samePoint
    exact absurd (equal ▸ isKept) dropped
  · exact .inr ⟨same.symm, precedes⟩

/-! ## A crop with one eligible corner -/

/-- A bright dot at the only eligible cell of a crop of the smallest size. -/
def dot : GrayPicture :=
  Raster.ofFn 32 32 fun x y => if x = 16 ∧ y = 16 then 255 else 0

theorem getD_dot (x y : Nat) :
    dot.getD x y 0 = if x = 16 ∧ y = 16 then 255 else 0 := by
  rw [dot, Raster.getD_eq, Raster.get?_ofFn]
  split
  · rfl
  · next outside =>
      rw [if_neg (by omega)]
      rfl

theorem isCorner_dot : isCorner dot 16 16 cornerThreshold = true := by
  simp only [isCorner, surrounds, brightnessAt, circle, getD_dot]
  decide

theorem mem_eligibleCorners_dot :
    { point := ⟨16, 16⟩
      strength := largest (isCorner dot 16 16) cornerThreshold 255 } ∈
      eligibleCorners dot :=
  mem_eligibleCorners_iff.2 ⟨if_pos isCorner_dot, by decide⟩

end Keypoint

/-! ## Described corners -/

theorem Signature.describe_eq_map {gray : GrayPicture} {points : List Point}
    (roomy : ∀ point ∈ points, ¬ TooClose gray point) :
    describe gray points =
      points.map (ofPatch (BrightnessSums.ofGray gray)) := by
  rw [describe, ← List.filterMap_eq_map]
  apply List.filterMap_congr
  intro point member
  exact if_neg (roomy point member)

namespace Descriptor

variable {crop : GrayPicture}

/-- No kept corner is left out when the kept corners are described. -/
theorem describe_kept (crop : GrayPicture) :
    Signature.describe crop ((Keypoint.kept crop).map Keypoint.point) =
      (Keypoint.kept crop).map fun corner =>
        Signature.ofPatch (BrightnessSums.ofGray crop) corner.point := by
  rw [Signature.describe_eq_map, List.map_map]
  · rfl
  · intro point member
    obtain ⟨corner, isKept, rfl⟩ := List.mem_map.1 member
    have eligible := (Keypoint.mem_eligibleCorners_iff.1
      ((Keypoint.sublist_kept crop).subset isKept)).2
    unfold Keypoint.Eligible at eligible
    unfold Signature.TooClose
    omega

theorem kept_eq_nil_iff :
    Keypoint.kept crop = [] ↔ Keypoint.eligibleCorners crop = [] := by
  rw [← List.length_eq_zero_iff, Keypoint.length_kept,
    ← List.length_eq_zero_iff, Keypoint.keptAtMost]
  omega

theorem ofCrop?_eq_none_iff :
    ofCrop? crop = none ↔ crop.width < 32 ∨ crop.height < 32 ∨
      Keypoint.eligibleCorners crop = [] := by
  rw [ofCrop?, ← or_assoc]
  split
  · next small => exact iff_of_true rfl (.inl small)
  · next large =>
      rw [← kept_eq_nil_iff]
      split
      · next nothing => exact iff_of_true rfl (.inr nothing)
      · next some =>
          refine iff_of_false (by simp) ?_
          rintro (small | nothing)
          · exact large small
          · exact some nothing

theorem eq_of_ofCrop? {descriptor : Descriptor}
    (found : ofCrop? crop = some descriptor) :
    descriptor = ofSignatures ((Keypoint.kept crop).map fun corner =>
      Signature.ofPatch (BrightnessSums.ofGray crop) corner.point) := by
  rw [← describe_kept]
  rw [ofCrop?] at found
  split at found
  · cases found
  · split at found
    · cases found
    · exact (Option.some.inj found).symm

/--
The eligible corners of a crop are those more than 15 cells away from the left
and the upper edge and with at least 15 cells to the right and below, each
listed once.  A crop has no descriptor exactly if it is narrower or lower than 32
or has no eligible corner.  Otherwise the descriptor has a row of 256 columns for
each of the strongest 500 of them, in row order: the kept corners are among the
eligible ones, and every other one is weaker than all kept ones, or equally
strong and later in row order.
-/
theorem ofCrop?_describes_strongest (crop : GrayPicture) :
    (∀ corner, corner ∈ Keypoint.eligibleCorners crop ↔
      Keypoint.at? crop corner.point = some corner ∧
        15 < corner.point.x ∧ 15 < corner.point.y ∧
        corner.point.x + 15 < crop.width ∧
        corner.point.y + 15 < crop.height) ∧
      (Keypoint.eligibleCorners crop).Nodup ∧
      (ofCrop? crop = none ↔ crop.width < 32 ∨ crop.height < 32 ∨
        Keypoint.eligibleCorners crop = []) ∧
      ∀ descriptor, ofCrop? crop = some descriptor →
        descriptor.columns = 256 ∧
          (∀ row ∈ descriptor.rows, row.length = 256) ∧
          descriptor.rows.length =
            min 500 (Keypoint.eligibleCorners crop).length ∧
          (∀ index : Nat, descriptor.rows[index]? =
            (Keypoint.kept crop)[index]?.map fun corner =>
              row (Signature.ofPatch (BrightnessSums.ofGray crop)
                corner.point)) ∧
          (Keypoint.kept crop).Sublist (Keypoint.eligibleCorners crop) ∧
          (Keypoint.kept crop).Pairwise
            (fun first second => first.point.Before second.point) ∧
          ∀ kept ∈ Keypoint.kept crop,
            ∀ other ∈ Keypoint.eligibleCorners crop,
              other ∉ Keypoint.kept crop →
                other.strength < kept.strength ∨
                  other.strength = kept.strength ∧
                    kept.point.Before other.point := by
  refine ⟨fun _ => Keypoint.mem_eligibleCorners_iff,
    Keypoint.nodup_eligibleCorners crop, ofCrop?_eq_none_iff, ?_⟩
  intro descriptor found
  obtain rfl := eq_of_ofCrop? found
  refine ⟨rfl, (ofSignatures _).length_row, ?_, ?_,
    Keypoint.sublist_kept crop, Keypoint.pairwise_kept crop, ?_⟩
  · rw [ofSignatures, List.length_map, List.length_map, Keypoint.length_kept]
    rfl
  · intro index
    rw [ofSignatures, List.getElem?_map, List.getElem?_map, Option.map_map]
    rfl
  · intro kept isKept other eligible dropped
    exact Keypoint.outranks_of_not_mem_kept isKept eligible dropped

/--
A bright dot at the only eligible cell of a crop of the smallest size has a
descriptor.
-/
theorem dot_is_described :
    let dot : GrayPicture := Raster.ofFn 32 32 fun x y =>
      if x = 16 ∧ y = 16 then 255 else 0
    ∃ descriptor, ofCrop? dot = some descriptor ∧
      descriptor.columns = 256 ∧ 0 < descriptor.rows.length := by
  intro dot
  obtain ⟨_, _, isNone, isSome⟩ := ofCrop?_describes_strongest dot
  have nonempty : Keypoint.eligibleCorners dot ≠ [] :=
    List.ne_nil_of_mem Keypoint.mem_eligibleCorners_dot
  obtain ⟨descriptor, found⟩ : ∃ descriptor, ofCrop? dot = some descriptor := by
    apply Option.ne_none_iff_exists'.1
    rw [ne_eq, isNone]
    rintro (narrow | low | nothing)
    · exact absurd narrow (by decide)
    · exact absurd low (by decide)
    · exact nonempty nothing
  obtain ⟨columns, _, rows, _⟩ := isSome descriptor found
  have some := List.length_pos_iff.2 nonempty
  exact ⟨descriptor, found, columns, by omega⟩

end Descriptor

end ScreenCompare
