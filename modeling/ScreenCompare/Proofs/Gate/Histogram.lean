import ScreenCompare.Gate
import ScreenCompare.Proofs.Float.Double

/-!
# The chi-square distance of histograms

Every bin of a histogram is finite, so the histogram of a picture is at distance
zero from itself, and zero is negligible (`isNegligible_self`).  The distance is
not symmetric: a bin that only the second histogram fills does not take part
(`isNegligible_asymmetric`).
-/

namespace ScreenCompare

open Double

namespace Picture

theorem binCounts_le (picture : Picture) :
    ∀ count ∈ picture.binCounts, count ≤ largestCount := by
  let bounded : Nat → Array Nat → Prop := fun _ counts =>
    ∀ count ∈ counts, count ≤ largestCount
  apply Array.foldl_induction bounded
  · intro count found
    rw [(Array.mem_replicate.1 found).2]
    exact Nat.zero_le _
  · intro position counts previous count found
    obtain ⟨bin, bound, rfl⟩ := Array.getElem_of_mem found
    rw [Array.getElem_modify]
    split
    · exact Nat.min_le_right _ _
    · exact previous _ (Array.getElem_mem _)

end Picture

namespace Histogram

theorem foldl_max_le {counts : Array Nat} {bound : Nat}
    (bounded : ∀ count ∈ counts, count ≤ bound) :
    counts.foldl max 0 ≤ bound := by
  apply Array.foldl_induction fun _ (most : Nat) => most ≤ bound
  · exact Nat.zero_le _
  · intro position most previous
    exact Nat.max_le.2 ⟨previous, bounded _ (Array.getElem_mem _)⟩

theorem isFinite_ofCounts {counts : Array Nat}
    (bounded : ∀ count ∈ counts, count ≤ largestCount) :
    ∀ bin ∈ (ofCounts counts).bins, bin.isFinite = true := by
  intro bin found
  obtain ⟨count, counted, rfl⟩ := Array.mem_map.1 found
  split
  case isTrue uneven =>
    have most := foldl_max_le bounded
    have atMost := bounded count counted
    exact isFinite_quotient (by omega)
      (Nat.le_trans (Nat.sub_le _ _) atMost)
      (Nat.le_trans (Nat.sub_le _ _) most)
  case isFalse => exact isZero_zero.isFinite

theorem isFinite_ofPicture (picture : Picture) :
    ∀ bin ∈ (ofPicture picture).bins, bin.isFinite = true :=
  isFinite_ofCounts picture.binCounts_le

/-! ## The distance of a histogram from itself -/

theorem isZero_addDeviation_self {total bin : Float}
    (zero : IsZero total) (finite : bin.isFinite = true) :
    IsZero (addDeviation total bin bin) := by
  rw [addDeviation]
  split
  case isTrue => exact zero
  case isFalse nonzero =>
    have filled : (bin == 0) = false := Bool.eq_false_iff.2 nonzero
    have deviation := isZero_sub_self finite filled
    exact zero.add ((deviation.mul deviation).div finite filled)

theorem isZero_chiSquare_self {histogram : Histogram}
    (finite : ∀ bin ∈ histogram.bins, bin.isFinite = true) :
    IsZero (histogram.chiSquare histogram) := by
  apply Array.foldl_induction fun _ total => IsZero total
  · exact isZero_minus_zero
  · intro position total zero
    simp only [Fin.getElem_fin, Array.getElem_zip]
    exact isZero_addDeviation_self zero (finite _ (Array.getElem_mem _))

theorem isNegligible_of_isZero {distance : Float}
    (zero : IsZero distance) : isNegligible distance = true := by
  rw [isNegligible, zero.sub_eq rfl rfl]
  rfl

theorem isZero_self (picture : Picture) :
    IsZero ((ofPicture picture).chiSquare (ofPicture picture)) :=
  isZero_chiSquare_self (isFinite_ofPicture picture)

theorem isNegligible_self (picture : Picture) :
    isNegligible ((ofPicture picture).chiSquare (ofPicture picture)) =
      true :=
  isNegligible_of_isZero (isZero_self picture)

/-! ## Asymmetry -/

variable {α β : Type}

theorem foldl_replicate_of_fixed {step : β → α → β} {state : β} {value : α}
    (fixed : step state value = state) (amount : Nat) :
    (List.replicate amount value).foldl step state = state := by
  induction amount with
  | zero => rfl
  | succ amount previous =>
      rw [List.replicate_succ, List.foldl_cons, fixed, previous]

/-- Two entries, and one and the same value after them. -/
def sparse (first second rest : α) (amount : Nat) : Array α :=
  (first :: second :: List.replicate amount rest).toArray

theorem modify_zero_sparse (first second rest : α) (amount : Nat)
    (change : α → α) :
    (sparse first second rest amount).modify 0 change =
      sparse (change first) second rest amount := by
  apply Array.toList_inj.1
  rw [Array.toList_modify]
  rfl

theorem modify_one_sparse (first second rest : α) (amount : Nat)
    (change : α → α) :
    (sparse first second rest amount).modify 1 change =
      sparse first (change second) rest amount := by
  apply Array.toList_inj.1
  rw [Array.toList_modify]
  rfl

theorem map_sparse (value : α → β) (first second rest : α)
    (amount : Nat) :
    (sparse first second rest amount).map value =
      sparse (value first) (value second) (value rest) amount := by
  apply Array.toList_inj.1
  rw [Array.toList_map]
  show _ :: _ :: List.map _ (List.replicate _ _) =
    _ :: _ :: List.replicate _ _
  rw [List.map_replicate]

theorem zip_sparse (first second rest : α)
    (otherFirst otherSecond otherRest : β) (amount : Nat) :
    (sparse first second rest amount).zip
        (sparse otherFirst otherSecond otherRest amount) =
      sparse (first, otherFirst) (second, otherSecond) (rest, otherRest)
        amount := by
  apply Array.toList_inj.1
  rw [Array.toList_zip]
  show _ :: _ :: List.zip (List.replicate _ _) (List.replicate _ _) =
    _ :: _ :: List.replicate _ _
  rw [List.zip_replicate, Nat.min_self]

theorem foldl_sparse {step : β → α → β} {state : β}
    {first second rest : α} (amount : Nat)
    (fixed : step (step (step state first) second) rest =
      step (step state first) second) :
    (sparse first second rest amount).foldl step state =
      step (step state first) second := by
  rw [← Array.foldl_toList]
  exact foldl_replicate_of_fixed fixed amount

/-- Counts in two bins of many are divided by the larger one. -/
theorem ofCounts_sparse {first second : Nat} (amount : Nat)
    (counted : 0 < max first second) :
    ofCounts (sparse first second 0 (amount + 1)) =
      ⟨sparse (Float.ofNat first / Float.ofNat (max first second))
        (Float.ofNat second / Float.ofNat (max first second))
        (Float.ofNat 0 / Float.ofNat (max first second)) (amount + 1)⟩ := by
  have fewest : (sparse first second 0 (amount + 1)).foldl min
      ((sparse first second 0 (amount + 1)).getD 0 0) = 0 := by
    rw [← Array.foldl_toList]
    show List.foldl min (min (min (min _ first) second) 0)
      (List.replicate _ 0) = 0
    rw [Nat.min_zero, foldl_replicate_of_fixed rfl]
  have most : (sparse first second 0 (amount + 1)).foldl max 0 =
      max first second := by
    rw [foldl_sparse _ (Nat.max_zero _), Nat.zero_max]
  simp only [ofCounts, fewest, most, if_pos counted, Nat.sub_zero,
    map_sparse]

theorem chiSquare_sparse
    {first second rest otherFirst otherSecond otherRest : Float}
    (amount : Nat) (empty : (rest == 0) = true) :
    chiSquare ⟨sparse first second rest amount⟩
        ⟨sparse otherFirst otherSecond otherRest amount⟩ =
      addDeviation (addDeviation (-0.0) first otherFirst)
        second otherSecond := by
  rw [chiSquare, zip_sparse, foldl_sparse]
  exact if_pos empty

/-- Two white cells. -/
def whiteCells : Picture where
  width := 2
  height := 1
  cells := #[Color.ofGray 255, Color.ofGray 255]
  size_cells := rfl

/-- A white cell and a faintly red one, which fills the next bin. -/
def tintedCells : Picture where
  width := 2
  height := 1
  cells := #[Color.ofGray 255, ⟨255, 254, 254⟩]
  size_cells := rfl

theorem bin_white : (Color.ofGray 255).bin = 0 := by decide

theorem bin_tinted : (Color.bin ⟨255, 254, 254⟩) = 1 := by decide

theorem ofPicture_whiteCells :
    ofPicture whiteCells =
      ⟨sparse (Float.ofNat 2 / Float.ofNat 2) (Float.ofNat 0 / Float.ofNat 2)
        (Float.ofNat 0 / Float.ofNat 2) 65534⟩ := by
  have counts : whiteCells.binCounts = sparse 2 0 0 65534 := by
    show Array.foldl _ (sparse 0 0 0 65534) _ = _
    rw [whiteCells, ← Array.foldl_toList]
    -- The number of empty bins would be counted down in unary.
    generalize 65534 = amount
    simp only [List.foldl_cons, List.foldl_nil, bin_white,
      modify_zero_sparse]
    rfl
  rw [ofPicture, counts]
  exact ofCounts_sparse 65533 (by decide)

theorem ofPicture_tintedCells :
    ofPicture tintedCells =
      ⟨sparse (Float.ofNat 1 / Float.ofNat 1) (Float.ofNat 1 / Float.ofNat 1)
        (Float.ofNat 0 / Float.ofNat 1) 65534⟩ := by
  have counts : tintedCells.binCounts = sparse 1 1 0 65534 := by
    show Array.foldl _ (sparse 0 0 0 65534) _ = _
    rw [tintedCells, ← Array.foldl_toList]
    generalize 65534 = amount
    simp only [List.foldl_cons, List.foldl_nil, bin_white, bin_tinted,
      modify_zero_sparse, modify_one_sparse]
    rfl
  rw [ofPicture, counts]
  exact ofCounts_sparse 65533 (by decide)

/-- The two pictures are told apart in one order only. -/
theorem isNegligible_asymmetric :
    isNegligible
        ((ofPicture whiteCells).chiSquare (ofPicture tintedCells)) = true ∧
      isNegligible
        ((ofPicture tintedCells).chiSquare (ofPicture whiteCells)) =
          false := by
  rw [ofPicture_whiteCells, ofPicture_tintedCells,
    chiSquare_sparse 65534 rfl, chiSquare_sparse 65534 rfl]
  decide +kernel

end Histogram

end ScreenCompare
