import ScreenCompare.Proofs.Gate.Histogram

/-!
# Counts of bins

Counting the cells of a picture leaves in each bin the number of cells whose
color has that bin, up to the largest count (`getElem?_binCounts`).  The order of
the cells does not matter (`binCounts_eq_of_perm`).

The 180 hues leave gaps in the 256 hue bins, so that there is always a bin that
stays empty (`foldl_min_binCounts`).  A picture with cells also has a fullest
bin (`exists_fullest`).
-/

namespace ScreenCompare

/-! ## Bins of colors -/

namespace Color

theorem hueBin_lt (color : Color) : color.hueBin < binsPerAxis :=
  Nat.lt_of_le_of_lt (Nat.min_le_right _ _) (by decide)

theorem saturationBin_lt (color : Color) :
    color.saturationBin < binsPerAxis :=
  Nat.lt_of_le_of_lt (Nat.min_le_right _ _) (by decide)

theorem bin_lt (color : Color) : color.bin < binsPerAxis * binsPerAxis := by
  have hue := color.hueBin_lt
  have saturation := color.saturationBin_lt
  rw [bin]
  calc
    color.hueBin * binsPerAxis + color.saturationBin
      < (color.hueBin + 1) * binsPerAxis := by
        rw [Nat.succ_mul]
        omega
    _ ≤ binsPerAxis * binsPerAxis := Nat.mul_le_mul_right _ hue

/-- Hue 2 has hue bin 2 and hue 3 has hue bin 4. -/
theorem hueBin_ne_three (color : Color) : color.hueBin ≠ 3 := by
  rw [hueBin, binsPerAxis]
  omega

/-- The first bin of the skipped hue bin is no color's bin. -/
theorem bin_ne_skipped (color : Color) : color.bin ≠ 3 * binsPerAxis := by
  have hue := color.hueBin_ne_three
  have saturation := color.saturationBin_lt
  rw [bin]
  rw [binsPerAxis] at *
  omega

end Color

namespace Picture

variable {picture other : Picture} {bin : Nat}

/-! ## Counting -/

/-- The number of cells whose color has a bin. -/
def cellsIn (picture : Picture) (bin : Nat) : Nat :=
  picture.cells.countP fun color => color.bin == bin

/-- The number of cells in a bin, up to the largest count. -/
def tally (picture : Picture) (bin : Nat) : Nat :=
  min (picture.cellsIn bin) largestCount

/-- Count one cell. -/
def countCell (counts : Array Nat) (color : Color) : Array Nat :=
  counts.modify color.bin fun count => min (count + 1) largestCount

theorem getElem?_countCell {counts : Array Nat} {count : Nat}
    (counted : counts[bin]? = some count) (bounded : count ≤ largestCount)
    (color : Color) :
    (countCell counts color)[bin]? =
      some (min (count + if color.bin = bin then 1 else 0) largestCount) := by
  rw [countCell, Array.getElem?_modify, counted]
  split
  · rfl
  · rw [Nat.add_zero, Nat.min_eq_left bounded]

theorem getElem?_foldl_countCell (colors : List Color) {counts : Array Nat}
    {count : Nat} (counted : counts[bin]? = some count)
    (bounded : count ≤ largestCount) :
    (colors.foldl countCell counts)[bin]? =
      some (min (count + colors.countP fun color => color.bin == bin)
        largestCount) := by
  induction colors generalizing counts count with
  | nil =>
      rw [List.foldl_nil, counted, List.countP_nil, Nat.add_zero,
        Nat.min_eq_left bounded]
  | cons color rest inductionHypothesis =>
      rw [List.foldl_cons, List.countP_cons,
        inductionHypothesis (getElem?_countCell counted bounded color)
          (Nat.min_le_right _ _)]
      simp only [beq_iff_eq]
      congr 1
      omega

/-- Each bin holds the number of its cells, up to the largest count. -/
theorem getElem?_binCounts (picture : Picture)
    (bound : bin < binsPerAxis * binsPerAxis) :
    picture.binCounts[bin]? = some (picture.tally bin) := by
  have start : (Array.replicate (binsPerAxis * binsPerAxis) 0)[bin]? =
      some 0 := by
    rw [Array.getElem?_replicate, if_pos bound]
  have counted := getElem?_foldl_countCell picture.cells.toList start
    (Nat.zero_le _)
  rw [Array.foldl_toList, Array.countP_toList, Nat.zero_add] at counted
  exact counted

theorem size_binCounts (picture : Picture) :
    picture.binCounts.size = binsPerAxis * binsPerAxis := by
  apply Array.foldl_induction fun _ (counts : Array Nat) =>
    counts.size = binsPerAxis * binsPerAxis
  · exact Array.size_replicate
  · intro position counts previous
    rw [Array.size_modify, previous]

theorem mem_binCounts_iff {count : Nat} :
    count ∈ picture.binCounts ↔
      ∃ bin < binsPerAxis * binsPerAxis, picture.tally bin = count := by
  rw [Array.mem_iff_getElem?]
  constructor
  · rintro ⟨bin, counted⟩
    have bound := (Array.getElem?_eq_some_iff.1 counted).1
    rw [size_binCounts] at bound
    rw [picture.getElem?_binCounts bound] at counted
    exact ⟨bin, bound, Option.some.inj counted⟩
  · rintro ⟨bin, bound, rfl⟩
    exact ⟨bin, picture.getElem?_binCounts bound⟩

/-! ## Tallies -/

theorem exists_mem_cells (filled : ¬ picture.IsEmpty) :
    ∃ color, color ∈ picture.cells := by
  have bound : 0 < picture.cells.size := by
    rw [picture.size_cells]
    rw [Raster.IsEmpty, not_or] at filled
    exact Nat.mul_pos (Nat.pos_of_ne_zero filled.1)
      (Nat.pos_of_ne_zero filled.2)
  exact ⟨picture.cells[0], Array.getElem_mem bound⟩

theorem tally_le (picture : Picture) (bin : Nat) :
    picture.tally bin ≤ largestCount :=
  Nat.min_le_right _ _

/-- A picture that is not too large is counted exactly. -/
theorem tally_eq_cellsIn (small : picture.cells.size ≤ largestCount)
    (bin : Nat) : picture.tally bin = picture.cellsIn bin :=
  Nat.min_eq_left (Nat.le_trans Array.countP_le_size small)

theorem tally_pos_iff :
    0 < picture.tally bin ↔ ∃ color ∈ picture.cells, color.bin = bin := by
  have largest : 0 < largestCount := by decide
  rw [tally, Nat.lt_min, and_iff_left largest, cellsIn, Array.countP_pos_iff]
  simp only [beq_iff_eq]

/-- A bin of no color stays empty. -/
theorem tally_eq_zero (missed : ∀ color : Color, color.bin ≠ bin) :
    picture.tally bin = 0 := by
  apply Nat.eq_zero_of_not_pos
  intro positive
  obtain ⟨color, -, equal⟩ := tally_pos_iff.1 positive
  exact missed color equal

theorem foldl_min_binCounts (picture : Picture) :
    picture.binCounts.foldl min (picture.binCounts.getD 0 0) = 0 := by
  have skipped : 0 ∈ picture.binCounts :=
    mem_binCounts_iff.2
      ⟨3 * binsPerAxis, by decide, tally_eq_zero Color.bin_ne_skipped⟩
  have fewest : picture.binCounts.min? = some 0 :=
    Array.min?_eq_some_iff.2 ⟨skipped, fun count _ => Nat.zero_le count⟩
  rw [Array.foldl_min, fewest, Option.getD_some, Nat.min_zero]

/-- A picture with cells has a bin that no other bin exceeds. -/
theorem exists_fullest (filled : ¬ picture.IsEmpty) :
    ∃ fullest < binsPerAxis * binsPerAxis,
      0 < picture.tally fullest ∧
        ∀ bin, picture.tally bin ≤ picture.tally fullest := by
  obtain ⟨color, found⟩ := exists_mem_cells filled
  obtain ⟨fullest, bound, greatest⟩ :=
    Finset.exists_max_image (Finset.range (binsPerAxis * binsPerAxis))
      picture.tally ⟨color.bin, Finset.mem_range.2 color.bin_lt⟩
  have positive : 0 < picture.tally color.bin :=
    tally_pos_iff.2 ⟨color, found, rfl⟩
  have atLeast := greatest _ (Finset.mem_range.2 color.bin_lt)
  refine ⟨fullest, Finset.mem_range.1 bound,
    Nat.lt_of_lt_of_le positive atLeast, ?_⟩
  intro bin
  by_cases inside : bin < binsPerAxis * binsPerAxis
  · exact greatest bin (Finset.mem_range.2 inside)
  · rw [tally_eq_zero]
    · exact Nat.zero_le _
    · rintro color rfl
      exact inside color.bin_lt

theorem foldl_max_binCounts {fullest : Nat}
    (bound : fullest < binsPerAxis * binsPerAxis)
    (greatest : ∀ bin, picture.tally bin ≤ picture.tally fullest) :
    picture.binCounts.foldl max 0 = picture.tally fullest := by
  have most : picture.binCounts.max? = some (picture.tally fullest) := by
    refine Array.max?_eq_some_iff.2
      ⟨mem_binCounts_iff.2 ⟨fullest, bound, rfl⟩, ?_⟩
    intro count counted
    obtain ⟨bin, -, rfl⟩ := mem_binCounts_iff.1 counted
    exact greatest bin
  rw [Array.foldl_max, most, Option.getD_some, Nat.zero_max]

/-! ## Rearranged pictures -/

/-- The order of the cells does not matter. -/
theorem binCounts_eq_of_perm (rearranged : other.cells.Perm picture.cells) :
    other.binCounts = picture.binCounts := by
  have tallies (bin : Nat) : other.tally bin = picture.tally bin := by
    rw [tally, tally, cellsIn, cellsIn, ← Array.countP_toList,
      ← Array.countP_toList, rearranged.toList.countP_eq]
  apply Array.ext_getElem?
  intro bin
  by_cases bound : bin < binsPerAxis * binsPerAxis
  · rw [getElem?_binCounts other bound, getElem?_binCounts picture bound,
      tallies]
  · rw [Array.getElem?_eq_none (by rw [size_binCounts]; omega),
      Array.getElem?_eq_none (by rw [size_binCounts]; omega)]

end Picture

end ScreenCompare
