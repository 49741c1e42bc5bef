import ScreenCompare.Proofs.LabelMap.FloodOrigin

/-!
# What flooding leaves unknown

A boundary cell hands no label on, so flooding need not reach every cell.  On a
map whose interior holds nothing but regions and unknown cells, an interior cell
stays unknown exactly if it is walled off: every walk from it to a seed passes a
boundary cell (`flood_leaves_walled_off_cells`).  Boundary needs two regions, so
where all seeds have one label that region takes the whole interior.
-/

namespace ScreenCompare

namespace LabelMap

/-- Every walk over interior cells to a seed passes a boundary cell. -/
def IsWalledOff (labels flooded : LabelMap) (point : Point) : Prop :=
  ∀ seed ∈ labels.interior, 0 < labels.labelAt seed →
    ¬ WalksTo { cell | cell ∈ labels.interior ∧
      flooded.labelAt cell ≠ boundary } point seed

/-- All seeds of a map have the same label. -/
def HasSingleRegion (labels : LabelMap) : Prop :=
  ∀ first ∈ labels.interior, ∀ second ∈ labels.interior,
    0 < labels.labelAt first → 0 < labels.labelAt second →
    labels.labelAt first = labels.labelAt second

variable {labels : LabelMap} {point : Point}

section Interior

variable (cleared : ∀ point ∈ labels.interior, 0 ≤ labels.labelAt point)
include cleared

theorem labelAt_flood_cases (relief : Picture)
    (member : point ∈ labels.interior) :
    (labels.flood relief).labelAt point = unknown ∨
      (labels.flood relief).labelAt point = boundary ∨
      0 < (labels.flood relief).labelAt point := by
  rcases (cleared point member).eq_or_lt with isUnknown | positive
  · have settles := settles_flood relief (labelAt_frame_eq_unknown_iff.2
      ⟨member, isUnknown.symm⟩)
    by_cases touches :
        ((labels.flood relief).regionsBeside point).Nonempty
    · exact .inr (settles.pos_or_eq_boundary regionsBeside_pos touches).symm
    · exact .inl ((settles.eq_unknown_iff regionsBeside_pos).2
        (Set.not_nonempty_iff_eq_empty.1 touches))
  · rw [labelAt_flood_of_mem_interior relief member positive.ne']
    exact .inr (.inr positive)

/-- Where no boundary lies between, unknown passes from cell to cell. -/
theorem flood_unknown_of_walksTo {relief : Picture} {target : Point}
    (isUnknown : (labels.flood relief).labelAt point = unknown)
    (walk : WalksTo { cell | cell ∈ labels.interior ∧
      (labels.flood relief).labelAt cell ≠ boundary } point target) :
    (labels.flood relief).labelAt target = unknown := by
  induction walk with
  | refl => exact isUnknown
  | tail _ last inductionHypothesis =>
      rcases last with ⟨_, ⟨member, notBoundary⟩, beside⟩
      have noRegion :=
        isQuiet_flood labels relief _ inductionHypothesis _ beside
      rcases labelAt_flood_cases cleared relief member with
        stays | isBoundary | positive
      · exact stays
      · exact absurd isBoundary notBoundary
      · omega

theorem flood_eq_unknown_iff (relief : Picture)
    (member : point ∈ labels.interior) :
    (labels.flood relief).labelAt point = unknown ↔
      (labels.flood relief).labelAt point ≠ boundary ∧
        IsWalledOff labels (labels.flood relief) point := by
  constructor
  · intro isUnknown
    refine ⟨isUnknown ▸ by decide, ?_⟩
    intro seed seedMember positive walk
    have reached := flood_unknown_of_walksTo cleared isUnknown walk
    rw [labelAt_flood_of_mem_interior relief seedMember positive.ne'] at reached
    exact positive.ne' reached
  · rintro ⟨notBoundary, walledOff⟩
    rcases labelAt_flood_cases cleared relief member with
      stays | isBoundary | positive
    · exact stays
    · exact absurd isBoundary notBoundary
    · rcases isRooted_flood labels relief point positive with
        ⟨_, seed, seedMember, seedLabel, walk⟩
      refine absurd (walk.mono ?_)
        (walledOff seed seedMember (seedLabel ▸ positive))
      rintro cell ⟨cellMember, same⟩
      refine ⟨cellMember, ?_⟩
      rintro isBoundary
      rw [same.symm.trans isBoundary] at positive
      exact absurd positive (by decide)

theorem flood_ne_boundary (single : labels.HasSingleRegion) (relief : Picture)
    (member : point ∈ labels.interior) :
    (labels.flood relief).labelAt point ≠ boundary := by
  intro isBoundary
  rcases (cleared point member).eq_or_lt with isUnknown | positive
  · have settles := settles_flood relief (labelAt_frame_eq_unknown_iff.2
      ⟨member, isUnknown.symm⟩)
    rcases (settles.eq_boundary_iff regionsBeside_pos).1 isBoundary with
      ⟨first, ⟨firstPositive, firstCell, _, rfl⟩,
        second, ⟨secondPositive, secondCell, _, rfl⟩, different⟩
    rcases isRooted_flood labels relief firstCell firstPositive with
      ⟨_, firstSeed, firstMember, firstLabel, _⟩
    rcases isRooted_flood labels relief secondCell secondPositive with
      ⟨_, secondSeed, secondMember, secondLabel, _⟩
    rw [← firstLabel, ← secondLabel] at different
    exact different (single firstSeed firstMember secondSeed secondMember
      (firstLabel ▸ firstPositive) (secondLabel ▸ secondPositive))
  · rw [labelAt_flood_of_mem_interior relief member positive.ne'] at isBoundary
    rw [isBoundary] at positive
    exact absurd positive (by decide)

/--
If all seeds have one label, flooding leaves no interior cell outside a region.
-/
theorem flood_pos_of_hasSingleRegion (single : labels.HasSingleRegion)
    (seeded : ∃ seed ∈ labels.interior, 0 < labels.labelAt seed)
    (relief : Picture) (member : point ∈ labels.interior) :
    0 < (labels.flood relief).labelAt point := by
  have notBoundary := flood_ne_boundary cleared single relief member
  rcases labelAt_flood_cases cleared relief member with
    isUnknown | isBoundary | positive
  · rcases seeded with ⟨seed, seedMember, seedPositive⟩
    have walledOff :=
      ((flood_eq_unknown_iff cleared relief member).1 isUnknown).2
    refine absurd ((walksTo_of_mem_interior member seedMember).mono ?_)
      (walledOff seed seedMember seedPositive)
    exact fun cell cellMember =>
      ⟨cellMember, flood_ne_boundary cleared single relief cellMember⟩
  · exact absurd isBoundary notBoundary
  · exact positive

end Interior

/--
On a map whose interior holds only regions and unknown cells, no interior cell
waits after flooding, and one that is no boundary is still unknown exactly if it
is walled off.  If all seeds have one label, every interior cell is in its
region.
-/
theorem flood_leaves_walled_off_cells {relief : Picture} {labels : LabelMap}
    (fits : relief.SameSize labels)
    (cleared : ∀ point ∈ labels.interior, 0 ≤ labels.labelAt point)
    (seeded : ∃ seed ∈ labels.interior, 0 < labels.labelAt seed) :
    ∃ flooded, labels.flood? relief = .ok flooded ∧
      (∀ point ∈ labels.interior, flooded.labelAt point ≠ waiting ∧
        (flooded.labelAt point = unknown ↔
          flooded.labelAt point ≠ boundary ∧
            IsWalledOff labels flooded point)) ∧
      (labels.HasSingleRegion → ∀ point ∈ labels.interior,
        0 < flooded.labelAt point) := by
  refine ⟨labels.flood relief, if_pos fits, ?walled, ?covered⟩
  case walled =>
    intro point member
    refine ⟨?_, flood_eq_unknown_iff cleared relief member⟩
    have cases := labelAt_flood_cases cleared relief member
    unfold unknown boundary at cases
    unfold waiting
    omega
  case covered =>
    intro single point member
    exact flood_pos_of_hasSingleRegion cleared single seeded relief member

/--
A corner of the interior is walled off by the boundary between a cell of one
region and two cells of another.
-/
theorem corner_is_walled_off :
    let relief : Picture := Raster.filled 5 5 (Color.ofGray 0)
    let labels : LabelMap :=
      ((((blank 5 5).set 3 1 1).set 2 2 2).set 1 3 1).set 3 3 1
    let corner : Point := { x := 1, y := 1 }
    relief.SameSize labels ∧
      (∀ point ∈ labels.interior, 0 ≤ labels.labelAt point) ∧
      (∃ seed ∈ labels.interior, 0 < labels.labelAt seed) ∧
      (labels.flood relief).labelAt corner = unknown ∧
      IsWalledOff labels (labels.flood relief) corner := by
  intro relief labels corner
  have fits : relief.SameSize labels := ⟨rfl, rfl⟩
  have cleared : ∀ point ∈ labels.interior, 0 ≤ labels.labelAt point := by
    decide +kernel
  have seeded : ∃ seed ∈ labels.interior, 0 < labels.labelAt seed := by
    decide +kernel
  have isUnknown : (labels.flood relief).labelAt corner = unknown := by
    decide +kernel
  rcases flood_leaves_walled_off_cells fits cleared seeded with
    ⟨flooded, ok, walled, _⟩
  obtain rfl := eq_of_flood? ok
  exact ⟨fits, cleared, seeded, isUnknown,
    ((walled corner (by decide)).2.1 isUnknown).2⟩

/--
Flooding does not label every interior cell, not even on a map whose interior
holds only seeds and unknown cells.
-/
theorem flood_misses_a_corner :
    ¬ ∀ (relief : Picture) (labels flooded : LabelMap),
      relief.SameSize labels →
      (∀ point ∈ labels.interior, 0 ≤ labels.labelAt point) →
      (∃ seed ∈ labels.interior, 0 < labels.labelAt seed) →
      labels.flood? relief = .ok flooded →
      ∀ point ∈ labels.interior, flooded.labelAt point ≠ unknown ∧
        flooded.labelAt point ≠ waiting := by
  intro covers
  let relief : Picture := Raster.filled 5 5 (Color.ofGray 0)
  let labels : LabelMap :=
    ((((blank 5 5).set 3 1 1).set 2 2 2).set 1 3 1).set 3 3 1
  have covered := covers relief labels (labels.flood relief) ⟨rfl, rfl⟩
    (by decide +kernel) (by decide +kernel) (if_pos ⟨rfl, rfl⟩)
    { x := 1, y := 1 } (by decide)
  exact covered.1 (by decide +kernel)

end LabelMap

end ScreenCompare
