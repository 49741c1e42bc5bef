import Mathlib.Data.Set.Subsingleton
import ScreenCompare.LabelMap.Flood
import ScreenCompare.Proofs.LabelMap.Flood

/-!
# The regions beside a cell

An interior cell has four neighbors, and being beside one another is symmetric.
The positive labels among them are the regions beside the cell.  The rule of
flooding gives a cell its label by these regions (`Settles`): unknown beside
none, the label of the only one, and boundary between several.  Confronting the
neighbors one after another follows that rule (`settles_labelFor`), in whatever
order they come.
-/

namespace ScreenCompare

namespace LabelMap

/-! ## Interior cells -/

theorem mem_interior {labels : LabelMap} {point : Point} :
    point ∈ labels.interior ↔ 1 ≤ point.x ∧ point.x + 1 < labels.width ∧
      1 ≤ point.y ∧ point.y + 1 < labels.height := by
  obtain ⟨x, y⟩ := point
  simp only [interior, List.mem_flatMap, List.mem_map, List.mem_range'_1,
    Point.mk.injEq]
  constructor
  · rintro ⟨row, rowInside, column, columnInside, rfl, rfl⟩
    omega
  · rintro ⟨left, right, above, below⟩
    exact ⟨y, by omega, x, by omega, rfl, rfl⟩

theorem length_interior (labels : LabelMap) :
    labels.interior.length = (labels.width - 2) * (labels.height - 2) := by
  simp only [interior, List.length_flatMap, List.length_map,
    List.length_range', List.map_const', List.sum_replicate_nat, Nat.mul_comm]

theorem contains_of_mem_interior {labels : LabelMap} {point : Point}
    (member : point ∈ labels.interior) : labels.Contains point.x point.y := by
  have bounds := mem_interior.1 member
  exact ⟨by omega, by omega⟩

theorem labelAt_frame (labels : LabelMap) (point : Point) :
    labels.frame.labelAt point =
      if point ∈ labels.interior then labels.labelAt point else boundary := by
  rw [labelAt, Raster.getD_eq, get?_frame, labelAt, Raster.getD_eq]
  by_cases inside : labels.Contains point.x point.y
  · rcases Raster.get?_of_contains inside with ⟨label, found⟩
    have onFrame : (point.x = 0 ∨ point.y = 0 ∨ point.x + 1 = labels.width ∨
        point.y + 1 = labels.height) ↔ point ∉ labels.interior := by
      unfold Raster.Contains at inside
      rw [mem_interior]
      omega
    rw [found]
    by_cases member : point ∈ labels.interior
    · rw [if_neg (fun framed => onFrame.1 framed member), if_pos member]
    · rw [if_pos (onFrame.2 member), if_neg member]
      rfl
  · rw [Raster.get?_eq_none_iff.2 inside]
    simp

/-- Every unknown cell of a framed map lies in the interior. -/
theorem mem_interior_of_unknown {labels : LabelMap} {point : Point}
    (isUnknown : labels.frame.labelAt point = unknown) :
    point ∈ labels.interior := by
  apply Classical.byContradiction
  intro outside
  rw [labelAt_frame, if_neg outside] at isUnknown
  exact absurd isUnknown (by decide)

theorem labelAt_frame_eq_unknown_iff {labels : LabelMap} {point : Point} :
    labels.frame.labelAt point = unknown ↔
      point ∈ labels.interior ∧ labels.labelAt point = unknown := by
  constructor
  · intro isUnknown
    have inside := mem_interior_of_unknown isUnknown
    rw [labelAt_frame, if_pos inside] at isUnknown
    exact ⟨inside, isUnknown⟩
  · rintro ⟨inside, isUnknown⟩
    rw [labelAt_frame, if_pos inside, isUnknown]

theorem labelAt_set {labels : LabelMap} {written : Point} {label : Int}
    (inside : labels.Contains written.x written.y) (point : Point) :
    LabelMap.labelAt (labels.set written.x written.y label) point =
      if point = written then label else labels.labelAt point := by
  rw [labelAt, Raster.getD_eq, Raster.get?_set_point, labelAt, Raster.getD_eq]
  by_cases here : point = written
  · rw [if_pos ⟨here, inside⟩, if_pos here]
    rfl
  · rw [if_neg fun both => here both.1, if_neg here]

/-! ## Neighbors -/

/--
Away from the first column and the first row, of two cells either both are
beside each other or none.
-/
theorem mem_besides_comm {first second : Point} (firstX : 1 ≤ first.x)
    (firstY : 1 ≤ first.y) (secondX : 1 ≤ second.x) (secondY : 1 ≤ second.y) :
    first ∈ besides second ↔ second ∈ besides first := by
  obtain ⟨x, y⟩ := first
  obtain ⟨otherX, otherY⟩ := second
  simp only [besides, List.mem_cons, List.not_mem_nil, Point.mk.injEq,
    or_false] at *
  omega

theorem not_mem_besides_self {point : Point} (column : 1 ≤ point.x)
    (row : 1 ≤ point.y) : point ∉ besides point := by
  obtain ⟨x, y⟩ := point
  simp only [besides, List.mem_cons, List.not_mem_nil, Point.mk.injEq,
    or_false] at *
  omega

/-- The positive labels beside a cell. -/
def regionsBeside (labels : LabelMap) (point : Point) : Set Int :=
  { label | 0 < label ∧
    ∃ neighbor ∈ besides point, labels.labelAt neighbor = label }

theorem regionsBeside_pos {labels : LabelMap} {point : Point} :
    ∀ label ∈ labels.regionsBeside point, 0 < label :=
  fun _ member => member.1

theorem mem_regionsBeside {labels : LabelMap} {point neighbor : Point}
    (beside : neighbor ∈ besides point)
    (positive : 0 < labels.labelAt neighbor) :
    labels.labelAt neighbor ∈ labels.regionsBeside point :=
  ⟨positive, neighbor, beside, rfl⟩

/--
A label written to a cell outside all regions is a new region beside the cell's
neighbors if it is positive, and changes nothing beside other cells.
-/
theorem regionsBeside_set {labels : LabelMap} {written : Point} {label : Int}
    (inside : labels.Contains written.x written.y)
    (outside : labels.labelAt written ≤ 0) (point : Point) :
    regionsBeside (labels.set written.x written.y label) point =
      { region | region ∈ labels.regionsBeside point ∨
        (0 < label ∧ written ∈ besides point) ∧ region = label } := by
  ext region
  constructor
  · rintro ⟨positive, neighbor, beside, rfl⟩
    rw [labelAt_set inside] at positive ⊢
    split at positive
    · next here =>
        rw [if_pos here]
        exact Or.inr ⟨⟨positive, here ▸ beside⟩, rfl⟩
    · next elsewhere =>
        rw [if_neg elsewhere]
        exact Or.inl (mem_regionsBeside beside positive)
  · rintro (⟨positive, neighbor, beside, rfl⟩ | ⟨⟨positive, beside⟩, rfl⟩)
    · have elsewhere : neighbor ≠ written := by
        rintro rfl
        omega
      exact ⟨positive, neighbor, beside,
        (labelAt_set inside neighbor).trans (if_neg elsewhere)⟩
    · exact ⟨positive, written, beside,
        (labelAt_set inside written).trans (if_pos rfl)⟩

theorem regionsBeside_set_of_silent {labels : LabelMap} {written : Point}
    {label : Int} (inside : labels.Contains written.x written.y)
    (outside : labels.labelAt written ≤ 0) {point : Point}
    (silent : ¬ (0 < label ∧ written ∈ besides point)) :
    regionsBeside (labels.set written.x written.y label) point =
      labels.regionsBeside point := by
  ext region
  simp [regionsBeside_set inside outside, silent]

/-! ## The rule of flooding -/

/-- The label that the rule of flooding gives to a cell beside some regions. -/
inductive Settles (regions : Set Int) : Int → Prop where
  /-- Beside no region a cell stays unknown. -/
  | untouched (none : regions = ∅) : Settles regions unknown
  /-- Beside a single region a cell joins it. -/
  | joined (label : Int) (only : regions = {label}) : Settles regions label
  /-- A cell between several regions is boundary. -/
  | between (several : regions.Nontrivial) : Settles regions boundary

namespace Settles

variable {regions : Set Int} {label : Int}

theorem eq_unknown_iff (settles : Settles regions label)
    (positive : ∀ region ∈ regions, 0 < region) :
    label = unknown ↔ regions = ∅ := by
  cases settles with
  | untouched none => exact iff_of_true rfl none
  | joined label only =>
      refine iff_of_false ?_ (only ▸ Set.singleton_ne_empty label)
      rintro rfl
      exact absurd (positive unknown (only ▸ rfl)) (by decide)
  | between several =>
      exact iff_of_false (by decide) several.nonempty.ne_empty

theorem eq_boundary_iff (settles : Settles regions label)
    (positive : ∀ region ∈ regions, 0 < region) :
    label = boundary ↔ regions.Nontrivial := by
  cases settles with
  | untouched none =>
      exact iff_of_false (by decide) (none ▸ Set.not_nontrivial_empty)
  | joined label only =>
      refine iff_of_false ?_ (only ▸ Set.not_nontrivial_singleton)
      rintro rfl
      exact absurd (positive boundary (only ▸ rfl)) (by decide)
  | between several => exact iff_of_true rfl several

theorem eq_iff_of_pos (settles : Settles regions label) {only : Int}
    (counts : 0 < only) : label = only ↔ regions = {only} := by
  cases settles with
  | untouched none =>
      refine iff_of_false ?_ (none ▸ (Set.singleton_ne_empty only).symm)
      rintro rfl
      exact absurd counts (by decide)
  | joined label here =>
      rw [here, Set.singleton_eq_singleton_iff]
  | between several =>
      refine iff_of_false ?_ fun single =>
        absurd (single ▸ several) Set.not_nontrivial_singleton
      rintro rfl
      exact absurd counts (by decide)

/-- Beside a region a cell gets its label or becomes boundary. -/
theorem pos_or_eq_boundary (settles : Settles regions label)
    (positive : ∀ region ∈ regions, 0 < region) (nonempty : regions.Nonempty) :
    0 < label ∨ label = boundary := by
  cases settles with
  | untouched none => exact absurd none nonempty.ne_empty
  | joined label only => exact Or.inl (positive label (only ▸ rfl))
  | between => exact Or.inr rfl

theorem ne_waiting (settles : Settles regions label)
    (positive : ∀ region ∈ regions, 0 < region) : label ≠ waiting := by
  cases settles with
  | untouched => decide
  | joined label only =>
      have least := positive label (only ▸ rfl)
      unfold waiting
      omega
  | between => decide

/-- One more neighbor is confronted with the label agreed on so far. -/
theorem agree (settles : Settles regions label)
    (positive : ∀ region ∈ regions, 0 < region) (neighbor : Int) :
    Settles { region | region ∈ regions ∨ 0 < neighbor ∧ region = neighbor }
      (Flood.agree label neighbor) := by
  rw [Flood.agree]
  by_cases outside : neighbor ≤ 0
  · have unchanged : { region | region ∈ regions ∨
        0 < neighbor ∧ region = neighbor } = regions := by
      ext region
      simp only [Set.mem_ofPred_eq, Int.not_lt.2 outside, false_and, or_false]
    rwa [if_pos outside, unchanged]
  · have counts : 0 < neighbor := by omega
    have added : { region | region ∈ regions ∨
        0 < neighbor ∧ region = neighbor } = insert neighbor regions := by
      ext region
      simp only [Set.mem_ofPred_eq, Set.mem_insert_iff, counts, true_and]
      exact or_comm
    rw [if_neg outside, added]
    cases settles with
    | untouched none =>
        rw [if_pos rfl, none, insert_empty_eq]
        exact joined neighbor rfl
    | joined label only =>
        have known : label ≠ unknown :=
          (positive label (only ▸ rfl)).ne'
        rw [if_neg known]
        by_cases same : label = neighbor
        · rw [if_pos same, only, ← same, Set.pair_eq_singleton]
          exact joined label rfl
        · rw [if_neg same, only]
          exact between (Set.nontrivial_pair (Ne.symm same))
    | between several =>
        have different : boundary ≠ neighbor := by
          unfold boundary
          omega
        rw [if_neg (by decide), if_neg different]
        exact between (several.mono (Set.subset_insert neighbor regions))

end Settles

theorem settles_foldl_agree {regions : Set Int} {label : Int}
    (settles : Settles regions label)
    (positive : ∀ region ∈ regions, 0 < region) (neighbors : List Int) :
    Settles { region | region ∈ regions ∨ 0 < region ∧ region ∈ neighbors }
      (neighbors.foldl Flood.agree label) := by
  induction neighbors generalizing regions label with
  | nil => simpa using settles
  | cons neighbor rest inductionHypothesis =>
      have next := inductionHypothesis (settles.agree positive neighbor) (by
        rintro region (old | ⟨counts, rfl⟩)
        · exact positive region old
        · exact counts)
      rw [List.foldl_cons]
      convert next using 1
      ext region
      simp only [Set.mem_ofPred_eq, List.mem_cons]
      constructor
      · rintro (old | ⟨counts, rfl | later⟩)
        · exact Or.inl (Or.inl old)
        · exact Or.inl (Or.inr ⟨counts, rfl⟩)
        · exact Or.inr ⟨counts, later⟩
      · rintro ((old | ⟨counts, rfl⟩) | ⟨counts, later⟩)
        · exact Or.inl old
        · exact Or.inr ⟨counts, Or.inl rfl⟩
        · exact Or.inr ⟨counts, Or.inr later⟩

/-- The label of a cell according to its neighbors follows the rule. -/
theorem settles_labelFor (labels : LabelMap) (point : Point) :
    Settles (labels.regionsBeside point) (Flood.labelFor labels point) := by
  have confronted := settles_foldl_agree (Settles.untouched rfl) (by simp)
    ((besides point).map labels.labelAt)
  rw [List.foldl_map] at confronted
  have beside : { label | label ∈ (∅ : Set Int) ∨
      0 < label ∧ label ∈ (besides point).map labels.labelAt } =
        labels.regionsBeside point := by
    ext label
    simp [regionsBeside]
  exact beside ▸ confronted

end LabelMap

end ScreenCompare
