import ScreenCompare.Matching.Nearest
import ScreenCompare.Proofs.Descriptor.Single

/-!
# Nearest rows are first minima

The search for the nearest row keeps a candidate that is one of the rows seen so
far, at its own distance.  If the distances of these rows are numbers, no row is
nearer, and each row before it is farther (`IsNearest`); what one candidate
preserves is carried over all of them.

A descriptor that is compared with a nonempty one has one correspondence for
each row, in row order (`map_source_correspondences`).
-/

namespace ScreenCompare.Descriptor

/--
A place among some rows is one of their nearest to a given row, and the first.
-/
structure IsNearest (row : List Single) (rows : List (List Single))
    (place : Nat) (distance : Single) : Prop where
  found : ∃ candidate, rows[place]? = some candidate ∧
    Single.distance row candidate = distance
  minimal : (∀ candidate ∈ rows, (Single.distance row candidate).IsNumber) →
    ∀ candidate ∈ rows,
      distance.value ≤ (Single.distance row candidate).value
  first : (∀ candidate ∈ rows, (Single.distance row candidate).IsNumber) →
    ∀ (earlier : Nat) (candidate : List Single), earlier < place →
      rows[earlier]? = some candidate →
        ¬ (Single.distance row candidate).value ≤ distance.value

/--
The best candidate is the nearest of the rows seen so far, if there are any.
-/
def IsBest (row : List Single) (seen : List (List Single)) :
    Option (Nat × Single) → Prop
  | none => seen = []
  | some (place, distance) => IsNearest row seen place distance

theorem isNearest_singleton (row candidate : List Single) :
    IsNearest row [candidate] 0 (Single.distance row candidate) where
  found := ⟨candidate, rfl, rfl⟩
  minimal := by
    intro numbers other member
    rw [List.mem_singleton.1 member]
    exact Single.value_le_refl
      (numbers candidate (List.mem_singleton_self candidate))
  first := by
    intro _ earlier _ before
    cases before

namespace IsNearest

variable {row candidate : List Single} {seen : List (List Single)}
  {place : Nat} {distance : Single}

theorem keep (nearest : IsNearest row seen place distance)
    (within : distance.value ≤ (Single.distance row candidate).value) :
    IsNearest row (seen ++ [candidate]) place distance := by
  obtain ⟨held, atPlace, itsDistance⟩ := nearest.found
  have bound := (List.getElem?_eq_some_iff.1 atPlace).1
  refine ⟨⟨held, ?_, itsDistance⟩, ?_, ?_⟩
  · rw [List.getElem?_append_left bound]
    exact atPlace
  · intro numbers other member
    rw [List.forall_mem_append] at numbers
    rcases List.mem_append.1 member with member | member
    · exact nearest.minimal numbers.1 other member
    · exact List.mem_singleton.1 member ▸ within
  · intro numbers earlier other before atEarlier
    rw [List.forall_mem_append] at numbers
    rw [List.getElem?_append_left (by omega)] at atEarlier
    exact nearest.first numbers.1 earlier other before atEarlier

theorem replace (nearest : IsNearest row seen place distance)
    (beyond : ¬ distance.value ≤ (Single.distance row candidate).value) :
    IsNearest row (seen ++ [candidate]) seen.length
      (Single.distance row candidate) := by
  refine ⟨⟨candidate, List.getElem?_concat_length, rfl⟩, ?_, ?_⟩
  · intro numbers other member
    rw [List.forall_mem_append] at numbers
    have number := numbers.2 candidate (List.mem_singleton_self candidate)
    rcases List.mem_append.1 member with member | member
    · have below := nearest.minimal numbers.1 other member
      have distanceNumber := (Single.value_le_iff.1 below).1
      exact Single.value_le_trans
        (Single.value_le_of_not_le distanceNumber number beyond) below
    · rw [List.mem_singleton.1 member]
      exact Single.value_le_refl number
  · intro numbers earlier other before atEarlier within
    rw [List.forall_mem_append] at numbers
    rw [List.getElem?_append_left before] at atEarlier
    have below := nearest.minimal numbers.1 other
      (List.mem_of_getElem? atEarlier)
    exact beyond (Single.value_le_trans below within)

end IsNearest

theorem isBest_keepNearer
    {row : List Single} {seen : List (List Single)}
    {best : Option (Nat × Single)} (candidate : List Single)
    (isBest : IsBest row seen best) :
    IsBest row (seen ++ [candidate])
      (keepNearer best (seen.length, Single.distance row candidate)) := by
  cases best with
  | none =>
      change seen = [] at isBest
      subst seen
      exact isNearest_singleton row candidate
  | some held =>
      rw [keepNearer]
      split
      · next within => exact IsNearest.keep isBest within
      · next beyond => exact IsNearest.replace isBest beyond

theorem isBest_nearestFrom
    {row : List Single} {seen : List (List Single)}
    {best : Option (Nat × Single)} (rest : List (List Single))
    (isBest : IsBest row seen best) :
    IsBest row (seen ++ rest) (nearestFrom row seen.length best rest) := by
  induction rest generalizing seen best with
  | nil =>
      rw [List.append_nil]
      exact isBest
  | cons candidate rest inductionHypothesis =>
      have later := inductionHypothesis (isBest_keepNearer candidate isBest)
      rw [List.append_assoc, List.length_append] at later
      exact later

theorem isBest_nearest? (row : List Single) (rows : List (List Single)) :
    IsBest row rows (nearest? row rows) :=
  isBest_nearestFrom rows (show IsBest row [] none from rfl)

theorem isNearest_of_nearest?
    {row : List Single} {rows : List (List Single)} {place : Nat}
    {distance : Single} (nearest : nearest? row rows = some (place, distance)) :
    IsNearest row rows place distance := by
  have isBest := isBest_nearest? row rows
  rw [nearest] at isBest
  exact isBest

theorem exists_nearest? (row : List Single) {rows : List (List Single)}
    (nonempty : rows ≠ []) :
    ∃ place distance, nearest? row rows = some (place, distance) := by
  have isBest := isBest_nearest? row rows
  cases nearest : nearest? row rows with
  | none =>
      rw [nearest] at isBest
      exact absurd isBest nonempty
  | some held => exact ⟨held.1, held.2, rfl⟩

/-! ## Correspondences -/

theorem mem_correspondences_iff
    {sources targets : Descriptor} {correspondence : Correspondence} :
    correspondence ∈ sources.correspondences targets ↔
      ∃ row, sources.rows[correspondence.source]? = some row ∧
        nearest? row targets.rows =
          some (correspondence.target, correspondence.distance) := by
  simp only [correspondences, List.mem_filterMap, List.mk_mem_zipIdx_iff_getElem?,
    Option.map_eq_some_iff, Prod.exists]
  constructor
  · rintro ⟨row, position, atPosition, target, distance, nearest, rfl⟩
    exact ⟨row, atPosition, nearest⟩
  · rintro ⟨row, atSource, nearest⟩
    exact ⟨row, correspondence.source, atSource, correspondence.target,
      correspondence.distance, nearest, rfl⟩

theorem exists_correspondence {sources targets : Descriptor}
    (nonempty : targets.rows ≠ []) {position : Nat} {row : List Single}
    (atPosition : sources.rows[position]? = some row) :
    ∃ correspondence ∈ sources.correspondences targets,
      correspondence.source = position := by
  obtain ⟨place, distance, nearest⟩ := exists_nearest? row nonempty
  exact ⟨⟨position, place, distance⟩,
    mem_correspondences_iff.2 ⟨row, atPosition, nearest⟩, rfl⟩

/-- A nonempty descriptor gives each row of another one a correspondence. -/
theorem map_source_correspondences
    {sources targets : Descriptor} (nonempty : targets.rows ≠ []) :
    (sources.correspondences targets).map Correspondence.source =
      List.range sources.rows.length := by
  rw [correspondences, List.map_filterMap]
  refine (List.filterMap_congr (g := some ∘ Prod.snd) ?_).trans ?_
  · intro entry _
    obtain ⟨place, distance, nearest⟩ := exists_nearest? entry.1 nonempty
    simp only [nearest]
    rfl
  · rw [List.filterMap_eq_map, List.zipIdx_map_snd, List.range_eq_range']

/-- The correspondence of a row stands at the position of the row. -/
theorem getElem?_correspondences_iff
    {sources targets : Descriptor} (nonempty : targets.rows ≠ [])
    {position : Nat} {correspondence : Correspondence} :
    (sources.correspondences targets)[position]? = some correspondence ↔
      correspondence ∈ sources.correspondences targets ∧
        correspondence.source = position := by
  have inOrder {place : Nat} {found : Correspondence}
      (atPlace : (sources.correspondences targets)[place]? = some found) :
      found.source = place := by
    have mapped := congrArg (·[place]?)
      (@map_source_correspondences sources targets nonempty)
    simp only [List.getElem?_map, atPlace, Option.map_some] at mapped
    obtain ⟨bound, atRange⟩ := List.getElem?_eq_some_iff.1 mapped.symm
    rw [← atRange, List.getElem_range]
  constructor
  · intro atPosition
    exact ⟨List.mem_of_getElem? atPosition, inOrder atPosition⟩
  · rintro ⟨member, rfl⟩
    obtain ⟨place, atPlace⟩ := List.mem_iff_getElem?.1 member
    rw [inOrder atPlace]
    exact atPlace

end ScreenCompare.Descriptor
