import ScreenCompare.Descriptor

/-!
# Numbers of a descriptor

A descriptor can be stored as one list of numbers, row after row.  Its rows have
one length, so the number of columns is enough to cut them out of that list again
(`rows_eq_slices`).
-/

namespace ScreenCompare

/-! ## Rows in one list -/

section Slices

variable {α : Type} {rows : List (List α)} {columns : Nat}

/-- The row at an index of a list in which rows follow one another. -/
def sliceAt (entries : List α) (columns index : Nat) : List α :=
  (entries.drop (index * columns)).take columns

/-- All full rows of a list in which rows follow one another. -/
def slices (entries : List α) (columns : Nat) : List (List α) :=
  (List.range (entries.length / columns)).map (sliceAt entries columns)

theorem sliceAt_append_zero {row rest : List α} (length : row.length = columns) :
    sliceAt (row ++ rest) columns 0 = row := by
  rw [sliceAt, Nat.zero_mul, List.drop_zero, List.take_left' length]

theorem sliceAt_append_succ {row rest : List α} (length : row.length = columns)
    (index : Nat) :
    sliceAt (row ++ rest) columns (index + 1) = sliceAt rest columns index := by
  rw [sliceAt, Nat.succ_mul, Nat.add_comm, ← List.drop_drop,
    List.drop_left' length, sliceAt]

/-- Rows of one length are cut out of the list that holds them one by one. -/
theorem map_sliceAt_flatten (uniform : ∀ row ∈ rows, row.length = columns) :
    (List.range rows.length).map (sliceAt rows.flatten columns) = rows := by
  induction rows with
  | nil => rfl
  | cons row rest inductionHypothesis =>
      rw [List.forall_mem_cons] at uniform
      rw [List.length_cons, List.range_succ_eq_map, List.map_cons,
        List.map_map, List.flatten_cons, sliceAt_append_zero uniform.1]
      congr 1
      refine Eq.trans (List.map_congr_left ?_) (inductionHypothesis uniform.2)
      intro index _
      exact sliceAt_append_succ uniform.1 index

theorem length_flatten_of_uniform
    (uniform : ∀ row ∈ rows, row.length = columns) :
    rows.flatten.length = rows.length * columns := by
  induction rows with
  | nil => exact (Nat.zero_mul columns).symm
  | cons row rest inductionHypothesis =>
      rw [List.forall_mem_cons] at uniform
      rw [List.flatten_cons, List.length_append, uniform.1,
        inductionHypothesis uniform.2, List.length_cons, Nat.succ_mul,
        Nat.add_comm]

end Slices

namespace Descriptor

/-- The numbers of a descriptor, row after row. -/
def entries (descriptor : Descriptor) : List Single :=
  descriptor.rows.flatten

theorem length_rows_eq (descriptor : Descriptor) :
    descriptor.rows.length =
      descriptor.entries.length / descriptor.columns := by
  rw [entries, length_flatten_of_uniform descriptor.length_row]
  by_cases empty : descriptor.rows = []
  · rw [empty, List.length_nil, Nat.zero_mul, Nat.zero_div]
  · rw [Nat.mul_div_cancel _ (descriptor.columns_pos empty)]

/-- The rows of a descriptor are restored from its numbers and its columns. -/
theorem rows_eq_slices (descriptor : Descriptor) :
    descriptor.rows = slices descriptor.entries descriptor.columns := by
  rw [slices, ← length_rows_eq]
  exact (map_sliceAt_flatten descriptor.length_row).symm

end Descriptor

end ScreenCompare
