import ScreenCompare.Descriptor.Signature
import ScreenCompare.Descriptor.Single
import ScreenCompare.Misuse

/-!
# Descriptors

A descriptor is a bag of rows of single-precision numbers, all of one length,
one row for each keypoint of a crop.  Rows without columns are not kept.  The
rows of a crop hold the bits of its keypoints' signatures as zeros and ones.
-/

namespace ScreenCompare

/-- Rows of equally many numbers. -/
structure Descriptor where
  columns : Nat
  rows : List (List Single)
  length_row : ∀ row ∈ rows, row.length = columns
  columns_pos : rows ≠ [] → 0 < columns

namespace Descriptor

/-- The descriptor of some rows, if they have one length. -/
def ofRows? (rows : List (List Single)) : Except Misuse Descriptor :=
  match rows with
  | [] =>
      .ok
        { columns := 0
          rows := []
          length_row := by simp
          columns_pos := by simp }
  | [] :: rest =>
      if rest.all List.isEmpty then
        .ok
          { columns := 0
            rows := []
            length_row := by simp
            columns_pos := by simp }
      else .error .raggedRows
  | (number :: numbers) :: rest =>
      if sameLength : ∀ row ∈ rest, row.length = numbers.length + 1 then
        .ok
          { columns := numbers.length + 1
            rows := (number :: numbers) :: rest
            length_row := by
              intro row member
              rcases List.mem_cons.1 member with here | later
              · simp [here]
              · exact sameLength row later
            columns_pos := by simp }
      else .error .raggedRows

/-- The number that stands for a bit. -/
def entry (bit : Bool) : Single :=
  if bit then Single.one else Single.zero

/-- The row of a signature. -/
def row (signature : Signature) : List Single :=
  signature.bits.map entry

@[simp]
theorem length_row_eq (signature : Signature) :
    (row signature).length = 256 := by
  simp [row, Signature.bits]

/-- The descriptor with one row for each signature. -/
def ofSignatures (signatures : List Signature) : Descriptor where
  columns := 256
  rows := signatures.map row
  length_row := by
    intro candidate member
    rcases List.mem_map.1 member with ⟨signature, _, equality⟩
    rw [← equality]
    exact length_row_eq signature
  columns_pos := fun _ => by decide

/-- The descriptor has no rows. -/
def isEmpty (descriptor : Descriptor) : Bool :=
  descriptor.rows.isEmpty

/-- The smallest width and height of a crop that can hold a patch. -/
def smallestCrop : Nat := 2 * Keypoint.patchRadius + 2

/--
The descriptor of a crop: the signatures of its kept keypoints.  A crop that is
too small for a patch, or has no eligible corner, has none.
-/
def ofCrop? (crop : GrayPicture) : Option Descriptor :=
  if crop.width < smallestCrop ∨ crop.height < smallestCrop then none
  else
    match Keypoint.kept crop with
    | [] => none
    | keypoints =>
        some (ofSignatures
          (Signature.describe crop (keypoints.map Keypoint.point)))

end Descriptor

end ScreenCompare
