import Mathlib.Logic.Equiv.Basic
import ScreenCompare.Proofs.LabelMap.FloodMirror

/-!
# The numbers of regions are only names

Let a map be flooded twice, the second time with other numbers for its regions.
If different regions keep different numbers, the same cells wait in the same
order, every cell joins the region that it joined before, and boundaries stay
where they were (`run_start_map`).  So the flooded maps differ by the renaming
alone, even if it changes which of two numbers is the larger
(`flood_map_of_injective`).
-/

namespace ScreenCompare

namespace StepQueue

/--
Whatever happens to equal queues, they stay equal and give out the same cells.
-/
theorem isSimulation_eq {Q : Type} [StepQueue Q] :
    IsSimulation (Eq : Q → Q → Prop) where
  empty := rfl
  push := by
    rintro queue _ height point rfl _
    rfl
  pop? := by
    rintro queue _ rfl
    cases StepQueue.pop? queue with
    | none => exact .none
    | some taken => exact .some ⟨rfl, rfl⟩

end StepQueue

namespace LabelMap

/-- The labels that name regions. -/
abbrev RegionLabel := { label : Int // 0 < label }

/-- Give every region another label, and leave the labels that name none. -/
def renameRegions (rename : RegionLabel → RegionLabel) (label : Int) : Int :=
  if names : 0 < label then (rename ⟨label, names⟩).val else label

variable {rename : RegionLabel → RegionLabel}

theorem renameRegions_of_pos {label : Int} (names : 0 < label) :
    renameRegions rename label = rename ⟨label, names⟩ :=
  dif_pos names

theorem renameRegions_of_nonpos {label : Int} (namesNone : label ≤ 0) :
    renameRegions rename label = label :=
  dif_neg (Int.not_lt.2 namesNone)

/-- Regions that get different labels are renamed. -/
theorem renamesRegions_of_injective (injective : Function.Injective rename) :
    RenamesRegions (renameRegions rename) where
  fixes := fun _ namesNone => renameRegions_of_nonpos namesNone
  positive := by
    intro label names
    rw [renameRegions_of_pos names]
    exact (rename ⟨label, names⟩).property
  injective := by
    intro first second same
    rcases Int.lt_or_le 0 first with firstNames | firstNone <;>
      rcases Int.lt_or_le 0 second with secondNames | secondNone
    · rw [renameRegions_of_pos firstNames, renameRegions_of_pos secondNames]
        at same
      exact congrArg Subtype.val (injective (Subtype.ext same))
    · have positive := (rename ⟨first, firstNames⟩).property
      rw [renameRegions_of_pos firstNames, renameRegions_of_nonpos secondNone]
        at same
      omega
    · have positive := (rename ⟨second, secondNames⟩).property
      rw [renameRegions_of_nonpos firstNone, renameRegions_of_pos secondNames]
        at same
      omega
    · rwa [renameRegions_of_nonpos firstNone,
        renameRegions_of_nonpos secondNone] at same

end LabelMap

namespace Flood

open LabelMap

variable {Q : Type}

/-- The flood with the labels of its map changed. -/
def relabel (flood : Flood Q) (rename : Int → Int) : Flood Q where
  labels := flood.labels.map rename
  queue := flood.queue

/--
After any number of rounds, the flood over a map with renamed regions is the
flood over the map with its regions renamed, and the same cells wait.
-/
theorem run_start_map [StepQueue Q] {rename : Int → Int}
    (renames : RenamesRegions rename) (relief : Picture) (labels : LabelMap)
    (rounds : Nat) :
    (run relief rounds (start relief (labels.map rename)) : Flood Q) =
      (run relief rounds (start relief labels)).relabel rename := by
  have mirrors := mirrors_run_start renames
    (StepQueue.isSimulation_eq (Q := Q)) relief labels rounds
  calc
    run relief rounds (start relief (labels.map rename))
        = { labels := (run relief rounds (start relief labels)).labels.map
              rename
            queue := (run relief rounds
              (start relief (labels.map rename))).queue } := by
      rw [← mirrors.labels]
    _ = (run relief rounds (start relief labels)).relabel rename := by
      rw [← mirrors.queue]
      rfl

end Flood

namespace LabelMap

/--
Flooding commutes with giving the regions other labels, as long as different
regions keep different ones: the flooded map is the one flooded under the old
labels, renamed.  At any time on the way both floods have the same cells waiting
in the same order, and their maps differ by the renaming alone.
-/
theorem flood_map_of_injective {rename : RegionLabel → RegionLabel}
    (injective : Function.Injective rename) {relief : Picture}
    {labels : LabelMap} (fits : relief.SameSize labels) :
    ∃ flooded, labels.flood? relief = .ok flooded ∧
      LabelMap.flood? (labels.map (renameRegions rename)) relief =
        .ok (flooded.map (renameRegions rename)) ∧
      ∀ rounds,
        (Flood.run relief rounds
            (Flood.start relief (labels.map (renameRegions rename))) :
          Flood StepBuckets) =
        (Flood.run relief rounds (Flood.start relief labels)).relabel
          (renameRegions rename) := by
  have renames := renamesRegions_of_injective injective
  have inStep (rounds : Nat) :=
    Flood.run_start_map (Q := StepBuckets) renames relief labels rounds
  have fitsRenamed : relief.SameSize (labels.map (renameRegions rename)) := fits
  refine ⟨labels.flood relief, ?_, ?_, inStep⟩
  · rw [flood?, if_pos fits]
  · rw [flood?, if_pos fitsRenamed]
    exact congrArg (fun flood => Except.ok flood.labels) (inStep _)

/--
Two regions exchange their labels, so that the smaller one becomes the larger:
the cells that joined either still do, and the boundary between them stays.
-/
theorem flood_with_labels_exchanged :
    let relief : Picture := Raster.filled 7 4 (Color.ofGray 0)
    let labels : LabelMap := ((blank 7 4).set 1 1 7).set 5 2 9
    let exchange : RegionLabel → RegionLabel :=
      Equiv.swap ⟨7, by decide⟩ ⟨9, by decide⟩
    let exchanged : LabelMap := ((blank 7 4).set 1 1 9).set 5 2 7
    Function.Injective exchange ∧ relief.SameSize labels ∧
      labels.map (renameRegions exchange) = exchanged ∧
      exchanged.flood? relief =
        .ok ((labels.flood relief).map (renameRegions exchange)) ∧
      (labels.flood relief).labelAt { x := 3, y := 1 } = 7 ∧
      (exchanged.flood relief).labelAt { x := 3, y := 1 } = 9 ∧
      (exchanged.flood relief).labelAt { x := 4, y := 1 } = boundary := by
  intro relief labels exchange exchanged
  have injective : Function.Injective exchange := Equiv.injective _
  have fits : relief.SameSize labels := ⟨rfl, rfl⟩
  have renamed : labels.map (renameRegions exchange) = exchanged := by
    decide +kernel
  rcases flood_map_of_injective injective fits with ⟨flooded, ok, same, _⟩
  obtain rfl := eq_of_flood? ok
  rw [renamed] at same
  exact ⟨injective, fits, renamed, same, by decide +kernel, by decide +kernel,
    by decide +kernel⟩

end LabelMap

end ScreenCompare
