import ScreenCompare.Proofs.Descriptor.Unpacking
import ScreenCompare.Proofs.Matching.Hamming

/-!
# Distances of unpacked signatures

Unpacking keeps everything that signatures are compared by: the squared
differences of two rows add up to the number of bits in which the signatures
differ, and a correspondence leads from a signature to the first one that differs
from it in the fewest bits (`ofSignatures_keeps_bits_and_distances`).
-/

namespace ScreenCompare

namespace Descriptor

theorem isBinaryRow_row (signature : Signature) :
    Single.IsBinaryRow (row signature) :=
  isBinary_ofSignatures [signature] (row signature) (List.mem_singleton_self _)

theorem hamming_le (first second : Signature) : first.hamming second ≤ 256 := by
  rw [← hamming_row]
  exact (isBinaryRow_row first).hamming_le

theorem ofCount_eq_ofNat :
    ∀ count ≤ 256, Single.ofCount count = Float32.ofNat count := by
  decide +kernel

/--
The squared differences of two rows add up to the number of bits in which the
signatures differ.
-/
theorem addSquares_row (first second : Signature) :
    Single.addSquares (row first) (row second) (Float32.ofBits 0x80000000) =
      Float32.ofNat (first.hamming second) := by
  rw [(isBinaryRow_row first).addSquares_eq (isBinaryRow_row second),
    hamming_row, ofCount_eq_ofNat _ (hamming_le first second)]

/--
The first row that differs in the fewest columns belongs to the first signature
that differs in the fewest bits.
-/
theorem exists_isFirstLeast_of_row {signature : Signature}
    {targets : List Signature} {place : Nat} {nearest : List Single}
    (isFirst : IsFirstLeast (Single.hamming (row signature))
      (ofSignatures targets).rows place nearest) :
    ∃ found, IsFirstLeast signature.hamming targets place found := by
  obtain ⟨atPlace, least, first⟩ := isFirst
  rw [ofSignatures, List.getElem?_map, Option.map_eq_some_iff] at atPlace
  obtain ⟨found, atTarget, rfl⟩ := atPlace
  rw [ofSignatures, List.forall_mem_map] at least
  rw [ofSignatures, ← List.map_take, List.forall_mem_map] at first
  simp only [hamming_row] at least first
  exact ⟨found, atTarget, least, first⟩

/--
Correspondences lead to the first signature that differs in the fewest bits.
-/
theorem exists_isFirstLeast_of_correspondence {sources targets : List Signature}
    {correspondence : Correspondence}
    (member : correspondence ∈
      (ofSignatures sources).correspondences (ofSignatures targets)) :
    ∃ signature nearest, sources[correspondence.source]? = some signature ∧
      IsFirstLeast signature.hamming targets correspondence.target
        nearest := by
  obtain ⟨_, _, atSource, isFirst, _⟩ :=
    (mem_correspondences_iff_hamming (isBinary_ofSignatures sources)
      (isBinary_ofSignatures targets)).1 member
  rw [ofSignatures, List.getElem?_map, Option.map_eq_some_iff] at atSource
  obtain ⟨signature, found, rfl⟩ := atSource
  obtain ⟨nearest, isNearest⟩ := exists_isFirstLeast_of_row isFirst
  exact ⟨signature, nearest, found, isNearest⟩

/--
A list of signatures is unpacked into one row of 256 columns for each of them, in
their order.  The numbers of all rows are those of the words, bit by bit, and the
rows are cut out of them again by the number of columns; column `128 * place +
bit` of a row holds the bit of the word at that place.  Rows of equal numbers come
from equal signatures.  The squared differences of two rows add up, without
rounding, to the number of bits in which the signatures differ; distances compare
like these numbers, and correspondences lead to the first signature that differs
in the fewest bits.
-/
theorem ofSignatures_keeps_bits_and_distances :
    (∀ signatures : List Signature,
      (ofSignatures signatures).columns = 256 ∧
        (ofSignatures signatures).entries =
          ((signatures.flatMap Signature.words).flatMap fun word =>
            (List.range 128).map fun bit => entry (word.getLsbD bit)) ∧
        (ofSignatures signatures).entries.length / 256 = signatures.length ∧
        (ofSignatures signatures).rows =
          (List.range signatures.length).map
            (sliceAt (ofSignatures signatures).entries 256) ∧
        ∀ index : Nat, (ofSignatures signatures).rows[index]? =
          signatures[index]?.map row) ∧
      (∀ signature : Signature, (row signature).length = 256 ∧
        ∀ (place : Nat) (word : BitVec 128),
          signature.words[place]? = some word → ∀ bit < 128,
            (row signature)[128 * place + bit]? =
              some (entry (word.getLsbD bit))) ∧
      (∀ first second : Signature,
        (List.Forall₂ Single.Equals (row first) (row second) ↔
          first = second) ∧
        first.hamming second =
          Signature.setBits (first.first ^^^ second.first) +
            Signature.setBits (first.second ^^^ second.second) ∧
        Single.addSquares (row first) (row second)
            (Float32.ofBits 0x80000000) =
          Float32.ofNat (first.hamming second)) ∧
      (∀ first second third fourth : Signature,
        (Single.distance (row first) (row second)).value ≤
            (Single.distance (row third) (row fourth)).value ↔
          first.hamming second ≤ third.hamming fourth) ∧
      ∀ sources targets : List Signature, ∀ correspondence ∈
        (ofSignatures sources).correspondences (ofSignatures targets),
          ∃ signature nearest,
            sources[correspondence.source]? = some signature ∧
              IsFirstLeast signature.hamming targets correspondence.target
                nearest := by
  refine ⟨?_, ?_, ?_, ?_, ?_⟩
  · intro signatures
    have rows : (ofSignatures signatures).rows.length = signatures.length :=
      List.length_map _
    have count :
        (ofSignatures signatures).entries.length / 256 = signatures.length := by
      rw [← rows]
      exact (length_rows_eq _).symm
    refine ⟨rfl, entries_ofSignatures signatures, count, ?_, ?_⟩
    · rw [← count]
      exact rows_eq_slices _
    · intro index
      exact List.getElem?_map ..
  · intro signature
    exact ⟨length_row_eq signature, fun _ _ found _ inside =>
      getElem?_row found inside⟩
  · intro first second
    exact ⟨forall₂_equals_row_iff first second,
      first.hamming_eq_setBits second, addSquares_row first second⟩
  · intro first second third fourth
    rw [Single.IsBinaryRow.distance_le_iff (isBinaryRow_row first)
      (isBinaryRow_row second) (isBinaryRow_row third)
      (isBinaryRow_row fourth), hamming_row, hamming_row]
  · intro sources targets correspondence member
    exact exists_isFirstLeast_of_correspondence member

/--
Two signatures differ in the lowest bit, in the bit three above it, and in the
highest bit of the second word, which is the last number of a row.
-/
theorem three_bits_are_unpacked :
    let first : Signature := { first := 0b1011, second := 1 <<< 127 }
    let second : Signature := { first := 0b0010, second := 0 }
    first.words[1]? = some (1 <<< 127) ∧
      (row first)[255]? = some Single.one ∧
      Single.addSquares (row first) (row second) (Float32.ofBits 0x80000000) =
        Float32.ofNat 3 := by
  intro first second
  obtain ⟨_, places, pairs, _⟩ := ofSignatures_keeps_bits_and_distances
  have highest : (1 <<< 127 : BitVec 128).getLsbD 127 = true := by decide
  have last := (places first).2 1 (1 <<< 127) rfl 127 (by decide)
  rw [highest] at last
  have three : first.hamming second = 3 := by decide +kernel
  have sum := (pairs first second).2.2
  rw [three] at sum
  exact ⟨rfl, last, sum⟩

end Descriptor

end ScreenCompare
