import Mathlib.Data.List.Forall2
import ScreenCompare.Proofs.Descriptor.Binary
import ScreenCompare.Proofs.Descriptor.Entries

/-!
# Unpacking signatures

The row of a signature holds one number for each bit, word by word, so no two
signatures have equal rows (`forall₂_equals_row_iff`).  Signatures differ in as
many bits as are set in the exclusive or of their words, and their rows differ in
as many columns (`hamming_row`).
-/

namespace ScreenCompare

/-! ## Bits of signatures -/

namespace Signature

/-- The two words of a signature. -/
def words (signature : Signature) : List (BitVec 128) :=
  [signature.first, signature.second]

/-- The bits of a word, the lowest one first. -/
def wordBits (word : BitVec 128) : List Bool :=
  (List.range 128).map word.getLsbD

/-- The number of bits that are set in a word. -/
def setBits (word : BitVec 128) : Nat :=
  (wordBits word).countP id

@[simp]
theorem length_wordBits (word : BitVec 128) : (wordBits word).length = 128 := by
  rw [wordBits, List.length_map, List.length_range]

theorem bits_eq (signature : Signature) :
    signature.bits = wordBits signature.first ++ wordBits signature.second :=
  rfl

theorem wordBits_injective : Function.Injective wordBits := by
  intro first second same
  apply BitVec.eq_of_getLsbD_eq
  intro bit inside
  have entries := congrArg (fun bits : List Bool => bits[bit]?) same
  simpa [wordBits, inside] using entries

theorem bits_injective : Function.Injective bits := by
  intro first second same
  rw [bits_eq, bits_eq] at same
  obtain ⟨firstWord, secondWord⟩ := List.append_inj same (by simp)
  cases first
  cases second
  rw [mk.injEq]
  exact ⟨wordBits_injective firstWord, wordBits_injective secondWord⟩

theorem length_filter_zip_wordBits (first second : BitVec 128) :
    (((wordBits first).zip (wordBits second)).filter fun pair =>
      pair.1 != pair.2).length = setBits (first ^^^ second) := by
  rw [wordBits, wordBits, List.zip_map', ← List.countP_eq_length_filter,
    List.countP_map, setBits, wordBits, List.countP_map]
  apply List.countP_congr
  intro bit _
  rw [Function.comp_apply, Function.comp_apply, id, BitVec.getLsbD_xor]

/--
Signatures differ in the bits that are set in the exclusive or of their words.
-/
theorem hamming_eq_setBits (first second : Signature) :
    first.hamming second =
      setBits (first.first ^^^ second.first) +
        setBits (first.second ^^^ second.second) := by
  rw [hamming, bits_eq, bits_eq, List.zip_append (by simp),
    List.filter_append, List.length_append, length_filter_zip_wordBits,
    length_filter_zip_wordBits]

end Signature

namespace Descriptor

/-! ## Rows of signatures -/

theorem row_eq (signature : Signature) :
    row signature = signature.words.flatMap fun word =>
      (List.range 128).map fun bit => entry (word.getLsbD bit) := by
  rw [row, Signature.bits_eq, List.map_append, Signature.wordBits,
    Signature.wordBits, List.map_map, List.map_map, Signature.words,
    List.flatMap_cons, List.flatMap_singleton]
  rfl

/-- The numbers of a list of signatures stand for their bits, word by word. -/
theorem entries_ofSignatures (signatures : List Signature) :
    (ofSignatures signatures).entries =
      (signatures.flatMap Signature.words).flatMap fun word =>
        (List.range 128).map fun bit => entry (word.getLsbD bit) := by
  rw [entries, ofSignatures, ← List.flatMap_def, List.flatMap_assoc]
  exact List.flatMap_congr fun signature _ => row_eq signature

theorem getElem?_row {signature : Signature} {place bit : Nat}
    {word : BitVec 128} (found : signature.words[place]? = some word)
    (inside : bit < 128) :
    (row signature)[128 * place + bit]? = some (entry (word.getLsbD bit)) := by
  rw [row, Signature.bits_eq, List.getElem?_map, Option.map_eq_some_iff]
  refine ⟨word.getLsbD bit, ?_, rfl⟩
  cases place with
  | zero =>
      obtain rfl := Option.some.inj found
      rw [Nat.mul_zero, Nat.zero_add, List.getElem?_append_left (by simpa)]
      simp [Signature.wordBits, inside]
  | succ place =>
      cases place with
      | zero =>
          obtain rfl := Option.some.inj found
          rw [Nat.zero_add, Nat.mul_one,
            List.getElem?_append_right (by simp)]
          simp [Signature.wordBits, inside]
      | succ place => cases found

theorem equals_entry_iff (first second : Bool) :
    (entry first).Equals (entry second) ↔ first = second := by
  cases first <;> cases second <;> decide

/-- Rows of equal numbers come from the same signature. -/
theorem forall₂_equals_row_iff (first second : Signature) :
    List.Forall₂ Single.Equals (row first) (row second) ↔ first = second := by
  rw [row, row, List.forall₂_map_left_iff, List.forall₂_map_right_iff]
  simp only [equals_entry_iff, List.forall₂_eq_eq_eq]
  exact Signature.bits_injective.eq_iff

/--
The rows of two signatures differ in as many columns as the signatures in bits.
-/
theorem hamming_row (first second : Signature) :
    Single.hamming (row first) (row second) = first.hamming second := by
  rw [Single.hamming, row, row, List.zip_map, List.countP_map,
    Signature.hamming, ← List.countP_eq_length_filter]
  apply List.countP_congr
  intro pair _
  simp [Function.comp_apply, Prod.map, equals_entry_iff]

end Descriptor

end ScreenCompare
