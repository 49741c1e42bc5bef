import Mathlib.Data.Finset.Card
import Mathlib.Data.Fintype.Prod
import ScreenCompare.Proofs.Descriptor.Binary
import ScreenCompare.Proofs.Matching.FirstLeast
import ScreenCompare.Proofs.Matching.Unchanged

/-!
# Matching binary descriptors by counting

Between rows of 256 zeros and ones, distances compare like the numbers of columns
in which the rows differ, so the nearest rows are those that differ in the fewest
columns (`mem_correspondences_iff_hamming`), and a distance is within the usual
limit if the rows differ in at most one.  Whether two binary descriptors match is
then decided by counting rows, or pairs of rows that are nearest to each other,
without any distances (`standard_admits_iff_hamming`).
-/

namespace ScreenCompare

open Single (hamming)

namespace Descriptor

/-- All rows have 256 columns of zeros and ones. -/
def IsBinary (descriptor : Descriptor) : Prop :=
  ∀ row ∈ descriptor.rows, Single.IsBinaryRow row

variable {sources targets : Descriptor}

theorem IsBinary.isFinite (binary : sources.IsBinary) : sources.IsFinite :=
  fun row member => (binary row member).isFiniteRow

/-- The descriptors of crops are binary. -/
theorem isBinary_ofSignatures (signatures : List Signature) :
    (ofSignatures signatures).IsBinary := by
  intro candidate member
  obtain ⟨signature, _, rfl⟩ := List.mem_map.1 member
  refine ⟨length_row_eq signature, ?_⟩
  intro number inRow
  obtain ⟨bit, _, rfl⟩ := List.mem_map.1 inRow
  cases bit with
  | false => exact .inl (by decide)
  | true => exact .inr (by decide)

/--
A correspondence leads to the first of the rows that differ from a given one in
the fewest columns.
-/
theorem isFirstLeast_hamming_of_mem (sourcesBinary : sources.IsBinary)
    (targetsBinary : targets.IsBinary) {correspondence : Correspondence}
    (member : correspondence ∈ sources.correspondences targets)
    {row : List Single}
    (atSource : sources.rows[correspondence.source]? = some row) :
    ∃ nearest, Single.distance row nearest = correspondence.distance ∧
      IsFirstLeast (hamming row) targets.rows correspondence.target
        nearest := by
  have rowBinary := sourcesBinary row (List.mem_of_getElem? atSource)
  obtain ⟨nearest, itsDistance, isFirst⟩ :=
    exists_isFirstLeast_of_mem member atSource
      (isNumber_distance sourcesBinary.isFinite targetsBinary.isFinite
        (List.mem_of_getElem? atSource))
  have nearestBinary := targetsBinary nearest
    (List.mem_of_getElem? isFirst.found)
  refine ⟨nearest, itsDistance, isFirst.of_measure ?_ ?_⟩
  · intro other inside
    exact (Single.IsBinaryRow.distance_le_iff rowBinary nearestBinary rowBinary
      (targetsBinary other inside)).1
  · intro other inside
    exact (Single.IsBinaryRow.distance_lt_iff rowBinary nearestBinary rowBinary
      (targetsBinary other inside)).1

/--
Correspondences of binary descriptors, by the columns in which rows differ.
-/
theorem mem_correspondences_iff_hamming (sourcesBinary : sources.IsBinary)
    (targetsBinary : targets.IsBinary) {correspondence : Correspondence} :
    correspondence ∈ sources.correspondences targets ↔
      ∃ row nearest, sources.rows[correspondence.source]? = some row ∧
        IsFirstLeast (hamming row) targets.rows correspondence.target
          nearest ∧
        Single.distance row nearest = correspondence.distance := by
  constructor
  · intro member
    obtain ⟨row, _, atSource, _⟩ := distance_of_mem_correspondences member
    obtain ⟨nearest, itsDistance, isFirst⟩ := isFirstLeast_hamming_of_mem
      sourcesBinary targetsBinary member atSource
    exact ⟨row, nearest, atSource, isFirst, itsDistance⟩
  · rintro ⟨row, nearest, atSource, isFirst, itsDistance⟩
    have nonempty : targets.rows ≠ [] :=
      List.ne_nil_of_mem (List.mem_of_getElem? isFirst.found)
    obtain ⟨found, member, start⟩ := exists_correspondence nonempty atSource
    obtain ⟨other, otherDistance, isOther⟩ := isFirstLeast_hamming_of_mem
      sourcesBinary targetsBinary member (start ▸ atSource)
    -- There is only one first row that differs in the fewest columns.
    have finish := isOther.place_eq isFirst
    have same : other = nearest := by
      have atTarget := isOther.found
      rw [finish, isFirst.found, Option.some.injEq] at atTarget
      exact atTarget.symm
    have equal : found = correspondence := by
      cases found
      cases correspondence
      simp_all
    exact equal ▸ member

end Descriptor

namespace MatchRule

variable {old new sources targets : Descriptor}

theorem standard_allows_iff_hamming {crossCheck : Bool}
    {row candidate : List Single} (rowBinary : Single.IsBinaryRow row)
    (candidateBinary : Single.IsBinaryRow candidate) :
    (standard crossCheck).allows (Single.distance row candidate) = true ↔
      hamming row candidate ≤ 1 := by
  rw [allows, decide_eq_true_iff]
  exact Single.IsBinaryRow.distance_le_one_iff rowBinary candidateBinary

/-! ## Rows with a near row -/

/--
More than half of the rows differ from some row of the other descriptor in at
most one column.
-/
def MostlyNear (sources targets : Descriptor) : Prop :=
  sources.rows.length < 2 * sources.rows.countP fun row =>
    decide (∃ candidate ∈ targets.rows, hamming row candidate ≤ 1)

instance (sources targets : Descriptor) :
    Decidable (MostlyNear sources targets) :=
  inferInstanceAs (Decidable (_ < _))

theorem MostlyNear.nonempty (near : MostlyNear sources targets) :
    sources.rows ≠ [] ∧ targets.rows ≠ [] := by
  have positive : 0 < sources.rows.countP fun row =>
      decide (∃ candidate ∈ targets.rows, hamming row candidate ≤ 1) := by
    rw [MostlyNear] at near
    omega
  obtain ⟨row, member, hasNear⟩ := List.countP_pos_iff.1 positive
  obtain ⟨candidate, inside, _⟩ := of_decide_eq_true hasNear
  exact ⟨List.ne_nil_of_mem member, List.ne_nil_of_mem inside⟩

/--
The nearest row is within the limit if any row differs in at most one column.
-/
theorem standard_allows_iff_exists {crossCheck : Bool}
    (sourcesBinary : sources.IsBinary) (targetsBinary : targets.IsBinary)
    {correspondence : Correspondence}
    (member : correspondence ∈ sources.correspondences targets)
    {row : List Single}
    (atSource : sources.rows[correspondence.source]? = some row) :
    (standard crossCheck).allows correspondence.distance = true ↔
      ∃ candidate ∈ targets.rows, hamming row candidate ≤ 1 := by
  obtain ⟨nearest, itsDistance, isFirst⟩ :=
    Descriptor.isFirstLeast_hamming_of_mem sourcesBinary targetsBinary member
      atSource
  have inside := List.mem_of_getElem? isFirst.found
  rw [← itsDistance, standard_allows_iff_hamming
    (sourcesBinary row (List.mem_of_getElem? atSource))
    (targetsBinary nearest inside)]
  constructor
  · intro near
    exact ⟨nearest, inside, near⟩
  · rintro ⟨candidate, candidateInside, near⟩
    exact Nat.le_trans (isFirst.least candidate candidateInside) near

theorem map_allows_correspondences (crossCheck : Bool)
    (nonempty : targets.rows ≠ []) (sourcesBinary : sources.IsBinary)
    (targetsBinary : targets.IsBinary) :
    ((sources.correspondences targets).map fun correspondence =>
        (standard crossCheck).allows correspondence.distance) =
      sources.rows.map fun row =>
        decide (∃ candidate ∈ targets.rows, hamming row candidate ≤ 1) := by
  apply List.ext_getElem
  · rw [List.length_map, List.length_map,
      Descriptor.length_correspondences nonempty]
  · intro position inside rowInside
    rw [List.length_map] at inside rowInside
    rw [List.getElem_map, List.getElem_map, Bool.eq_iff_iff,
      decide_eq_true_iff]
    obtain ⟨member, start⟩ :=
      (Descriptor.getElem?_correspondences_iff nonempty).1
        (List.getElem?_eq_getElem inside)
    apply standard_allows_iff_exists sourcesBinary targetsBinary member
    rw [start]
    exact List.getElem?_eq_getElem rowInside

/-- The distances in one direction pass if most rows have a near one. -/
theorem standard_passes_iff_mostlyNear {crossCheck : Bool}
    (nonempty : targets.rows ≠ []) (sourcesBinary : sources.IsBinary)
    (targetsBinary : targets.IsBinary) :
    (standard crossCheck).passes ((sources.correspondences targets).map
        Correspondence.distance) = true ↔ MostlyNear sources targets := by
  have numbers : ∀ distance ∈ (sources.correspondences targets).map
      Correspondence.distance, distance.IsNumber := by
    rw [List.forall_mem_map]
    intro correspondence member
    exact Descriptor.isNumber_of_mem_correspondences sourcesBinary.isFinite
      targetsBinary.isFinite member
  have counts := congrArg (List.countP id) (map_allows_correspondences
    crossCheck nonempty sourcesBinary targetsBinary)
  rw [List.countP_map, List.countP_map] at counts
  rw [passes_iff_of_isNumber numbers, List.length_map, List.countP_map,
    Descriptor.length_correspondences nonempty, MostlyNear]
  exact iff_of_eq (congrArg (sources.rows.length < 2 * ·) counts)

/-! ## Mutually nearest rows -/

/--
The pairs of positions whose rows are, each for the other one, the first that
differs in the fewest columns.
-/
def mutualPairs (old new : Descriptor) :
    Finset (Fin old.rows.length × Fin new.rows.length) :=
  Finset.univ.filter fun pair =>
    IsFirstLeast (hamming old.rows[pair.1]) new.rows pair.2
        new.rows[pair.2] ∧
      IsFirstLeast (hamming new.rows[pair.2]) old.rows pair.1
        old.rows[pair.1]

/-- The correspondence between the rows of a pair. -/
def between (old new : Descriptor)
    (pair : Fin old.rows.length × Fin new.rows.length) : Correspondence where
  source := pair.1
  target := pair.2
  distance := Single.distance old.rows[pair.1] new.rows[pair.2]

theorem between_injective : Function.Injective (between old new) := by
  intro first second same
  rw [between, between, Correspondence.mk.injEq] at same
  exact Prod.ext (Fin.ext same.1) (Fin.ext same.2.1)

/-- The cross-check keeps the correspondences between mutually nearest rows. -/
theorem mem_kept_iff_mutualPairs (oldBinary : old.IsBinary)
    (newBinary : new.IsBinary) {correspondence : Correspondence} :
    correspondence ∈ kept old new ↔
      ∃ pair ∈ mutualPairs old new, between old new pair = correspondence := by
  simp only [mutualPairs, Finset.mem_filter, Finset.mem_univ, true_and]
  constructor
  · intro isKept
    have member := (List.mem_filter.1 isKept).1
    obtain ⟨row, nearest, atSource, isFirst, itsDistance⟩ :=
      (Descriptor.mem_correspondences_iff_hamming oldBinary newBinary).1 member
    have nonempty : old.rows ≠ [] :=
      List.ne_nil_of_mem (List.mem_of_getElem? atSource)
    obtain ⟨_, back, backMember, start, finish⟩ :=
      (mem_kept_iff nonempty).1 isKept
    obtain ⟨backRow, backNearest, atBack, isFirstBack, _⟩ :=
      (Descriptor.mem_correspondences_iff_hamming newBinary oldBinary).1
        backMember
    rw [start, isFirst.found, Option.some.injEq] at atBack
    rw [finish] at isFirstBack
    have sameRow := isFirstBack.found
    rw [atSource, Option.some.injEq] at sameRow
    subst atBack sameRow
    obtain ⟨sourceBound, rfl⟩ := List.getElem?_eq_some_iff.1 atSource
    obtain ⟨targetBound, rfl⟩ := List.getElem?_eq_some_iff.1 isFirst.found
    refine ⟨(⟨correspondence.source, sourceBound⟩,
      ⟨correspondence.target, targetBound⟩), ⟨isFirst, isFirstBack⟩, ?_⟩
    rw [between]
    exact congrArg (Correspondence.mk _ _) itsDistance
  · rintro ⟨pair, ⟨isFirst, isFirstBack⟩, rfl⟩
    have nonempty : old.rows ≠ [] :=
      List.ne_nil_of_mem (List.mem_of_getElem? isFirstBack.found)
    have member : between old new pair ∈ old.correspondences new :=
      (Descriptor.mem_correspondences_iff_hamming oldBinary newBinary).2
        ⟨_, _, isFirstBack.found, isFirst, rfl⟩
    have backMember : between new old pair.swap ∈ new.correspondences old :=
      (Descriptor.mem_correspondences_iff_hamming newBinary oldBinary).2
        ⟨_, _, isFirst.found, isFirstBack, rfl⟩
    exact (mem_kept_iff nonempty).2 ⟨member, _, backMember, rfl, rfl⟩

theorem toFinset_kept (oldBinary : old.IsBinary) (newBinary : new.IsBinary) :
    (kept old new).toFinset = (mutualPairs old new).image (between old new) := by
  ext correspondence
  rw [List.mem_toFinset, mem_kept_iff_mutualPairs oldBinary newBinary,
    Finset.mem_image]

/--
The kept correspondences with a property are counted by the pairs they are
between.
-/
theorem countP_kept (nonempty : new.rows ≠ []) (oldBinary : old.IsBinary)
    (newBinary : new.IsBinary) (property : Correspondence → Bool) :
    (kept old new).countP property =
      ((mutualPairs old new).filter fun pair =>
        property (between old new pair) = true).card := by
  have distinct : ((kept old new).filter property).Nodup :=
    (nodup_kept nonempty).filter property
  rw [List.countP_eq_length_filter, ← List.toFinset_card_of_nodup distinct,
    List.toFinset_filter, toFinset_kept oldBinary newBinary,
    Finset.filter_image, Finset.card_image_of_injective _ between_injective]

/--
What the cross-check keeps passes if, in most pairs of mutually nearest rows, the
rows differ in at most one column.
-/
theorem standard_passes_kept_iff {crossCheck : Bool}
    (nonempty : new.rows ≠ []) (oldBinary : old.IsBinary)
    (newBinary : new.IsBinary) :
    (standard crossCheck).passes
        ((kept old new).map Correspondence.distance) = true ↔
      (mutualPairs old new).card <
        2 * ((mutualPairs old new).filter fun pair =>
          hamming old.rows[pair.1] new.rows[pair.2] ≤ 1).card := by
  have rowBinary (pair : Fin old.rows.length × Fin new.rows.length) :
      Single.IsBinaryRow old.rows[pair.1] ∧
        Single.IsBinaryRow new.rows[pair.2] :=
    ⟨oldBinary _ (List.getElem_mem _), newBinary _ (List.getElem_mem _)⟩
  have numbers : ∀ distance ∈ (kept old new).map Correspondence.distance,
      distance.IsNumber := by
    rw [List.forall_mem_map]
    intro correspondence isKept
    exact Descriptor.isNumber_of_mem_correspondences oldBinary.isFinite
      newBinary.isFinite (List.mem_filter.1 isKept).1
  have total := countP_kept nonempty oldBinary newBinary fun _ => true
  rw [List.countP_true] at total
  rw [passes_iff_of_isNumber numbers, List.length_map, List.countP_map, total,
    countP_kept nonempty oldBinary newBinary]
  simp only [Function.comp_apply, between, standard_allows_iff_hamming
    (rowBinary _).1 (rowBinary _).2, Finset.filter_true]

/-! ## Acceptance -/

/--
With the usual limit, binary descriptors match without cross-check if most rows
of one of them differ from some row of the other one in at most one column; and
with cross-check, if most pairs of mutually nearest rows do.
-/
theorem standard_admits_iff_hamming (oldBinary : old.IsBinary)
    (newBinary : new.IsBinary) :
    ((standard false).admits old new = true ↔
        MostlyNear old new ∨ MostlyNear new old) ∧
      ((standard true).admits old new = true ↔
        (mutualPairs old new).card <
          2 * ((mutualPairs old new).filter fun pair =>
            hamming old.rows[pair.1] new.rows[pair.2] ≤ 1).card) := by
  constructor
  · rw [admits_iff, if_neg (by decide)]
    constructor
    · rintro ⟨oldNonempty, newNonempty, passed⟩
      rwa [standard_passes_iff_mostlyNear newNonempty oldBinary newBinary,
        standard_passes_iff_mostlyNear oldNonempty newBinary oldBinary]
        at passed
    · intro near
      have nonempty : old.rows ≠ [] ∧ new.rows ≠ [] :=
        near.elim MostlyNear.nonempty fun back => back.nonempty.symm
      refine ⟨nonempty.1, nonempty.2, ?_⟩
      rwa [standard_passes_iff_mostlyNear nonempty.2 oldBinary newBinary,
        standard_passes_iff_mostlyNear nonempty.1 newBinary oldBinary]
  · rw [admits_iff, if_pos (by decide)]
    constructor
    · rintro ⟨_, newNonempty, passed⟩
      exact (standard_passes_kept_iff newNonempty oldBinary newBinary).1 passed
    · intro near
      obtain ⟨pair, _⟩ : (mutualPairs old new).Nonempty := by
        rw [← Finset.card_pos]
        have fewer := Finset.card_filter_le (mutualPairs old new) fun pair =>
          hamming old.rows[pair.1] new.rows[pair.2] ≤ 1
        omega
      have newNonempty : new.rows ≠ [] :=
        List.ne_nil_of_mem (List.getElem_mem pair.2.isLt)
      exact ⟨List.ne_nil_of_mem (List.getElem_mem pair.1.isLt), newNonempty,
        (standard_passes_kept_iff newNonempty oldBinary newBinary).2 near⟩

/--
The first rows differ in one column and are nearest to each other.  The second
rows differ in at least 10 columns from all others, and both have a first row as
their nearest one: with cross-check they do not count, and without it they are
half of the rows.
-/
theorem far_second_rows_need_crossCheck :
    let old : Descriptor := .ofSignatures
      [{ first := 0, second := 0 }, { first := 0xffc00, second := 0 }]
    let new : Descriptor := .ofSignatures
      [{ first := 1, second := 0 }, { first := 0, second := 0xffc00 }]
    old.IsBinary ∧ new.IsBinary ∧
      (standard false).admits old new = false ∧
      (standard true).admits old new = true := by
  intro old new
  have oldBinary : old.IsBinary := Descriptor.isBinary_ofSignatures _
  have newBinary : new.IsBinary := Descriptor.isBinary_ofSignatures _
  have counted := standard_admits_iff_hamming oldBinary newBinary
  refine ⟨oldBinary, newBinary, ?_, counted.2.2 (by decide +kernel)⟩
  rw [Bool.eq_false_iff, Ne, counted.1]
  decide +kernel

end MatchRule

end ScreenCompare
