import ScreenCompare.Proofs.Descriptor.Entries
import ScreenCompare.Proofs.Matching.CrossCheck

/-!
# Correspondences lead to first minima

If the distances between the rows of two descriptors are numbers, the
correspondence of a row leads to the first of the other rows that are nearest to
it.  Every row has one, in row order, and the one of the row that it leads to is
found at that row's position, which is where the cross-check looks it up
(`correspondences_are_first_minima`).
-/

namespace ScreenCompare

/-! ## First least entries -/

/--
An entry at a place has the least measure among some entries, and all entries
before it have a greater one.
-/
structure IsFirstLeast {α β : Type} [LE β] [LT β] (measure : α → β)
    (entries : List α) (place : Nat) (entry : α) : Prop where
  found : entries[place]? = some entry
  least : ∀ other ∈ entries, measure entry ≤ measure other
  first : ∀ other ∈ entries.take place, measure entry < measure other

instance {α β : Type} [DecidableEq α] [LE β] [LT β] [DecidableLE β]
    [DecidableLT β] (measure : α → β) (entries : List α) (place : Nat)
    (entry : α) : Decidable (IsFirstLeast measure entries place entry) :=
  decidable_of_iff
    (entries[place]? = some entry ∧
      (∀ other ∈ entries, measure entry ≤ measure other) ∧
        ∀ other ∈ entries.take place, measure entry < measure other)
    ⟨fun ⟨found, least, first⟩ => ⟨found, least, first⟩,
      fun isFirst => ⟨isFirst.found, isFirst.least, isFirst.first⟩⟩

namespace IsFirstLeast

variable {α β γ : Type} {entries : List α} {place other : Nat}
  {entry otherEntry : α}

theorem place_le [Preorder β] {measure : α → β}
    (isFirst : IsFirstLeast measure entries place entry)
    (isLeast : IsFirstLeast measure entries other otherEntry) :
    place ≤ other := by
  by_contra before
  obtain ⟨bound, atOther⟩ := List.getElem?_eq_some_iff.1 isLeast.found
  have early : otherEntry ∈ entries.take place :=
    List.mem_take_iff_getElem.2 ⟨other, by omega, atOther⟩
  exact (isFirst.first otherEntry early).not_ge
    (isLeast.least entry (List.mem_of_getElem? isFirst.found))

/-- There is only one place of a first least entry. -/
theorem place_eq [Preorder β] {measure : α → β}
    (isFirst : IsFirstLeast measure entries place entry)
    (isOther : IsFirstLeast measure entries other otherEntry) :
    place = other :=
  Nat.le_antisymm (isFirst.place_le isOther) (isOther.place_le isFirst)

/--
A first least entry remains so under a measure that keeps the comparisons.
-/
theorem of_measure [LE β] [LT β] [LE γ] [LT γ] {first : α → β} {second : α → γ}
    (isFirst : IsFirstLeast first entries place entry)
    (keepsLe : ∀ other ∈ entries,
      first entry ≤ first other → second entry ≤ second other)
    (keepsLt : ∀ other ∈ entries,
      first entry < first other → second entry < second other) :
    IsFirstLeast second entries place entry where
  found := isFirst.found
  least := fun other member =>
    keepsLe other member (isFirst.least other member)
  first := fun other member =>
    keepsLt other (List.mem_of_mem_take member) (isFirst.first other member)

end IsFirstLeast

namespace Descriptor

variable {sources targets : Descriptor}

/--
Among rows at distances that are numbers, the search finds the first nearest one.
-/
theorem IsNearest.exists_isFirstLeast {row : List Single}
    {rows : List (List Single)} {place : Nat} {distance : Single}
    (nearest : IsNearest row rows place distance)
    (numbers : ∀ candidate ∈ rows,
      (Single.distance row candidate).IsNumber) :
    ∃ found, Single.distance row found = distance ∧
      IsFirstLeast (fun candidate => (Single.distance row candidate).value)
        rows place found := by
  obtain ⟨found, atPlace, itsDistance⟩ := nearest.found
  refine ⟨found, itsDistance, atPlace, ?_, ?_⟩
  · intro other member
    rw [itsDistance]
    exact nearest.minimal numbers other member
  · intro other member
    obtain ⟨earlier, bound, rfl⟩ := List.mem_take_iff_getElem.1 member
    have inside : earlier < rows.length := by omega
    have farther := nearest.first numbers earlier rows[earlier] (by omega)
      (List.getElem?_eq_getElem inside)
    rw [← itsDistance] at farther
    exact Single.value_lt_of_not_le
      (numbers _ (List.getElem_mem inside))
      (numbers found (List.mem_of_getElem? atPlace)) farther

/-- The correspondence of a row leads to the first nearest row. -/
theorem exists_isFirstLeast_of_mem {correspondence : Correspondence}
    (member : correspondence ∈ sources.correspondences targets)
    {row : List Single}
    (atSource : sources.rows[correspondence.source]? = some row)
    (numbers : ∀ candidate ∈ targets.rows,
      (Single.distance row candidate).IsNumber) :
    ∃ nearest, Single.distance row nearest = correspondence.distance ∧
      IsFirstLeast (fun candidate => (Single.distance row candidate).value)
        targets.rows correspondence.target nearest := by
  obtain ⟨same, atSame, nearest⟩ := mem_correspondences_iff.1 member
  rw [atSource, Option.some.injEq] at atSame
  subst same
  exact (isNearest_of_nearest? nearest).exists_isFirstLeast numbers

theorem length_correspondences (nonempty : targets.rows ≠ []) :
    (sources.correspondences targets).length = sources.rows.length := by
  have positions := congrArg List.length
    (@map_source_correspondences sources targets nonempty)
  rw [List.length_map, List.length_range] at positions
  exact positions

/--
The correspondence of the row that a correspondence leads to stands at the
position of that row.
-/
theorem exists_back (nonempty : sources.rows ≠ [])
    {correspondence : Correspondence}
    (member : correspondence ∈ sources.correspondences targets) :
    ∃ back, (targets.correspondences sources)[correspondence.target]? =
        some back ∧ back.source = correspondence.target := by
  obtain ⟨_, candidate, _, atTarget, _⟩ :=
    distance_of_mem_correspondences member
  obtain ⟨back, backMember, start⟩ := exists_correspondence nonempty atTarget
  exact ⟨back, (getElem?_correspondences_iff nonempty).2 ⟨backMember, start⟩,
    start⟩

/--
Between descriptors at distances that are numbers, each row has one
correspondence, in row order, which leads to the first nearest row; and the
cross-check finds there the correspondence of that row.  The rows of either
descriptor are those that its number of columns cuts out of its numbers.
-/
theorem correspondences_are_first_minima
    (sourcesNonempty : sources.rows ≠ []) (targetsNonempty : targets.rows ≠ [])
    (numbers : ∀ row ∈ sources.rows, ∀ candidate ∈ targets.rows,
      (Single.distance row candidate).IsNumber) :
    (sources.correspondences targets).length = sources.rows.length ∧
      (∀ (position : Nat) (row : List Single),
        sources.rows[position]? = some row →
          ∃ correspondence nearest,
            (sources.correspondences targets)[position]? =
                some correspondence ∧
              correspondence.source = position ∧
              correspondence.distance = Single.distance row nearest ∧
              IsFirstLeast
                (fun candidate => (Single.distance row candidate).value)
                targets.rows correspondence.target nearest) ∧
      (∀ correspondence ∈ sources.correspondences targets, ∃ back,
        (targets.correspondences sources).toArray[correspondence.target]? =
            some back ∧
          back.source = correspondence.target ∧
          MatchRule.isMutual (targets.correspondences sources).toArray
              correspondence =
            (back.target == correspondence.source)) ∧
      sources.rows = slices sources.entries sources.columns ∧
      targets.rows = slices targets.entries targets.columns := by
  refine ⟨length_correspondences targetsNonempty, ?_, ?_,
    sources.rows_eq_slices, targets.rows_eq_slices⟩
  · intro position row atPosition
    obtain ⟨correspondence, member, rfl⟩ :=
      exists_correspondence targetsNonempty atPosition
    obtain ⟨nearest, itsDistance, isFirst⟩ := exists_isFirstLeast_of_mem member
      atPosition (numbers row (List.mem_of_getElem? atPosition))
    exact ⟨correspondence, nearest,
      (getElem?_correspondences_iff targetsNonempty).2 ⟨member, rfl⟩, rfl,
      itsDistance.symm, isFirst⟩
  · intro correspondence member
    obtain ⟨back, found, start⟩ := exists_back sourcesNonempty member
    have atTarget :
        (targets.correspondences sources).toArray[correspondence.target]? =
          some back := by
      rw [List.getElem?_toArray, found]
    exact ⟨back, atTarget, start, by rw [MatchRule.isMutual, atTarget]⟩

/--
The row 1 is as near to both zeros as to 2, and corresponds to the first of the
three rows.
-/
theorem tied_row_leads_to_the_first :
    let sources : Descriptor := .ofColumn [Single.one, Single.zero]
    let targets : Descriptor :=
      .ofColumn [Single.zero, { bits := 0x40000000 }, Single.zero]
    sources.rows ≠ [] ∧ targets.rows ≠ [] ∧
      (∀ row ∈ sources.rows, ∀ candidate ∈ targets.rows,
        (Single.distance row candidate).IsNumber) ∧
      sources.correspondences targets =
        [{ source := 0, target := 0, distance := Single.one },
          { source := 1, target := 0, distance := Single.zero }] ∧
      ∃ correspondence nearest,
        (sources.correspondences targets)[0]? = some correspondence ∧
          correspondence.source = 0 ∧
          correspondence.distance = Single.distance [Single.one] nearest ∧
          IsFirstLeast
            (fun candidate => (Single.distance [Single.one] candidate).value)
            targets.rows correspondence.target nearest := by
  intro sources targets
  have sourcesNonempty : sources.rows ≠ [] := by decide
  have targetsNonempty : targets.rows ≠ [] := by decide
  have numbers : ∀ row ∈ sources.rows, ∀ candidate ∈ targets.rows,
      (Single.distance row candidate).IsNumber := by
    decide +kernel
  have minima :=
    correspondences_are_first_minima sourcesNonempty targetsNonempty numbers
  exact ⟨sourcesNonempty, targetsNonempty, numbers, by decide +kernel,
    minima.2.1 0 [Single.one] rfl⟩

end Descriptor

end ScreenCompare
