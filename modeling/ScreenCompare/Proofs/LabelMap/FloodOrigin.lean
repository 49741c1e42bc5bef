import ScreenCompare.Proofs.LabelMap.FloodChange
import ScreenCompare.Proofs.LabelMap.Walk

/-!
# Labels come only from seeds

Flooding hands labels on and makes none.  In every state of a flood the regions
are rooted: from a cell in a region a walk within that region leads back to a
cell that had the label before (`IsRooted`).  A cell joins a region only beside
a cell of that region, and no cell of a region is ever written again, so both
changes of a flood keep its regions rooted.

On the flooded map the frame is boundary, known cells are as they were, and every
region has grown from its seeds without a gap (`flood_grows_from_seeds`).
-/

namespace ScreenCompare

namespace LabelMap

/--
From every cell in a region a walk within the region leads to a seed, a cell to
which the first map gives the same label.
-/
def IsRooted (labels current : LabelMap) : Prop :=
  ∀ point, 0 < current.labelAt point → point ∈ labels.interior ∧
    ∃ seed ∈ labels.interior, labels.labelAt seed = current.labelAt point ∧
      WalksTo { cell | cell ∈ labels.interior ∧
        current.labelAt cell = current.labelAt point } point seed

theorem isRooted_frame (labels : LabelMap) : labels.IsRooted labels.frame := by
  intro point positive
  have member : point ∈ labels.interior := by
    apply Classical.byContradiction
    intro outside
    rw [labelAt_frame, if_neg outside] at positive
    exact absurd positive (by decide)
  exact ⟨member, point, member, ((labelAt_frame ..).trans (if_pos member)).symm,
    .refl⟩

/--
Regions stay rooted when a cell outside all regions is written, provided that it
joins at most a region beside it.
-/
theorem IsRooted.set {labels current : LabelMap} {written : Point}
    {label : Int} (rooted : labels.IsRooted current)
    (member : written ∈ labels.interior)
    (inside : current.Contains written.x written.y)
    (outside : current.labelAt written ≤ 0)
    (joins : 0 < label → label ∈ current.regionsBeside written) :
    labels.IsRooted (current.set written.x written.y label) := by
  have kept {region : Int} (positive : 0 < region) :
      { cell | cell ∈ labels.interior ∧ current.labelAt cell = region } ⊆
        { cell | cell ∈ labels.interior ∧
          LabelMap.labelAt (current.set written.x written.y label) cell =
            region } := by
    rintro cell ⟨cellMember, rfl⟩
    have elsewhere : cell ≠ written := by
      rintro rfl
      omega
    exact ⟨cellMember, (labelAt_set inside cell).trans (if_neg elsewhere)⟩
  intro point positive
  by_cases here : point = written
  · subst here
    have same : LabelMap.labelAt (current.set point.x point.y label) point =
        label := (labelAt_set inside point).trans (if_pos rfl)
    rw [same] at positive ⊢
    rcases joins positive with ⟨_, neighbor, beside, rfl⟩
    rcases rooted neighbor positive with
      ⟨neighborMember, seed, seedMember, seedLabel, walk⟩
    refine ⟨member, seed, seedMember, seedLabel, ?_⟩
    exact .head ⟨⟨member, same⟩, kept positive ⟨neighborMember, rfl⟩, beside⟩
      (walk.mono (kept positive))
  · have same : LabelMap.labelAt (current.set written.x written.y label) point =
        current.labelAt point := (labelAt_set inside point).trans (if_neg here)
    rw [same] at positive ⊢
    rcases rooted point positive with
      ⟨pointMember, seed, seedMember, seedLabel, walk⟩
    exact ⟨pointMember, seed, seedMember, seedLabel, walk.mono (kept positive)⟩

theorem IsRooted.change {Q : Type} [StepQueue Q] {labels : LabelMap}
    {before after : Flood Q} (change : Flood.Change labels before after)
    (rooted : labels.IsRooted before.labels) :
    labels.IsRooted after.labels := by
  cases change with
  | awaits wasUnknown inside isUnknown =>
      exact rooted.set (mem_interior_of_unknown wasUnknown) inside
        (Int.le_of_eq isUnknown) fun positive => absurd positive (by decide)
  | settles wasUnknown inside _ isWaiting _ settles =>
      refine rooted.set (mem_interior_of_unknown wasUnknown) inside
        (isWaiting ▸ by decide) fun positive => ?_
      rw [(settles.eq_iff_of_pos positive).1 rfl]
      rfl

theorem isRooted_flood (labels : LabelMap) (relief : Picture) :
    labels.IsRooted (labels.flood relief) :=
  Flood.run_start_of_changes
    (fun flood : Flood StepBuckets => labels.IsRooted flood.labels)
    IsRooted.change (isRooted_frame labels) relief _

theorem labelAt_flood_of_mem_interior {labels : LabelMap} (relief : Picture)
    {point : Point} (member : point ∈ labels.interior)
    (isKnown : labels.labelAt point ≠ unknown) :
    (labels.flood relief).labelAt point = labels.labelAt point := by
  have framed := (labelAt_frame labels point).trans (if_pos member)
  rw [labelAt_flood_of_known relief (framed ▸ isKnown), framed]

theorem get?_flood_of_outer {labels : LabelMap} (relief : Picture) {x y : Nat}
    (inside : labels.Contains x y)
    (outer : x = 0 ∨ y = 0 ∨ x + 1 = labels.width ∨ y + 1 = labels.height) :
    (labels.flood relief).get? x y = some boundary := by
  have sizes := sameSize_flood labels relief
  have contained : (labels.flood relief).Contains x y :=
    ⟨sizes.1 ▸ inside.1, sizes.2 ▸ inside.2⟩
  rcases Raster.get?_of_contains contained with ⟨label, found⟩
  rw [← frame_flood, get?_frame, if_pos (by rwa [sizes.1, sizes.2]), found]
  rfl

/--
On the flooded map the outermost cells are boundary and the interior cells that
were known are as they were.  From every cell that was unknown and has joined a
region, a walk over interior cells of that region leads to a cell that had the
region's label before.
-/
theorem flood_grows_from_seeds {relief : Picture} {labels : LabelMap}
    (fits : relief.SameSize labels) :
    ∃ flooded, labels.flood? relief = .ok flooded ∧
      flooded.SameSize labels ∧
      (∀ x y, labels.Contains x y →
        (x = 0 ∨ y = 0 ∨ x + 1 = labels.width ∨ y + 1 = labels.height) →
        flooded.get? x y = some boundary) ∧
      (∀ point ∈ labels.interior, labels.labelAt point ≠ unknown →
        flooded.labelAt point = labels.labelAt point) ∧
      (∀ point ∈ labels.interior, labels.labelAt point = unknown →
        0 < flooded.labelAt point →
        ∃ seed ∈ labels.interior,
          labels.labelAt seed = flooded.labelAt point ∧
          WalksTo { cell | cell ∈ labels.interior ∧
            flooded.labelAt cell = flooded.labelAt point } point seed) := by
  refine ⟨labels.flood relief, if_pos fits, sameSize_flood labels relief,
    fun _ _ => get?_flood_of_outer relief, ?known, ?grown⟩
  case known =>
    exact fun point => labelAt_flood_of_mem_interior relief
  case grown =>
    intro point _ _ positive
    exact (isRooted_flood labels relief point positive).2

/--
Where the regions of two seeds meet, the last cell on one side still has a walk
to the seed of its own region.
-/
theorem cell_at_the_divide_walks_to_seed :
    let relief : Picture := Raster.filled 7 4 (Color.ofGray 0)
    let labels : LabelMap := ((blank 7 4).set 1 1 7).set 5 2 9
    let last : Point := { x := 3, y := 1 }
    relief.SameSize labels ∧ labels.labelAt last = unknown ∧
      (labels.flood relief).labelAt last = 7 ∧
      (labels.flood relief).labelAt { x := 4, y := 1 } = boundary ∧
      ∃ seed ∈ labels.interior, labels.labelAt seed = 7 ∧
        WalksTo { cell | cell ∈ labels.interior ∧
          (labels.flood relief).labelAt cell = 7 } last seed := by
  intro relief labels last
  have fits : relief.SameSize labels := ⟨rfl, rfl⟩
  have isUnknown : labels.labelAt last = unknown := by decide
  have joined : (labels.flood relief).labelAt last = 7 := by decide +kernel
  rcases flood_grows_from_seeds fits with ⟨flooded, ok, _, _, _, grown⟩
  obtain rfl := eq_of_flood? ok
  have walk := grown last (by decide) isUnknown (joined ▸ by decide)
  rw [joined] at walk
  exact ⟨fits, isUnknown, joined, by decide +kernel, walk⟩

end LabelMap

end ScreenCompare
