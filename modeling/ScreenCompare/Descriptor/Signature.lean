import ScreenCompare.Descriptor.Keypoint

/-!
# Signatures of patches

A keypoint is described by 256 brightness comparisons in the 31 by 31 patch
around it.  Each compares the mean brightness of two small windows at fixed
places of the patch.  The outcomes are shifted into two words of 128 bits.

An outcome is added to its word before the word is shifted, so the first outcome
of a word leaves it at the top, outcome `i` ends at bit `128 - i`, and bit 0 is
never set.
-/

namespace ScreenCompare

/-- Two places in a patch whose brightness is compared. -/
structure PatchTest where
  firstX : Nat
  firstY : Nat
  secondX : Nat
  secondY : Nat
deriving Repr

namespace PatchTest

/--
The places of the 256 comparisons: column and row of the first window, then
column and row of the second.
-/
def places : List (Nat × Nat × Nat × Nat) :=
  [(8, 22, 7, 22), (29, 22, 10, 7), (28, 28, 7, 24), (20, 7, 2, 17),
    (30, 2, 19, 9), (27, 20, 2, 17), (14, 25, 16, 29), (7, 24, 25, 23),
    (8, 20, 25, 6), (5, 5, 24, 8), (0, 5, 2, 25), (28, 3, 1, 0),
    (16, 0, 29, 9), (13, 18, 26, 25), (16, 24, 10, 4), (2, 21, 8, 7),
    (26, 9, 6, 6), (9, 21, 18, 30), (18, 4, 3, 2), (10, 20, 8, 20),
    (2, 24, 4, 20), (8, 17, 9, 22), (19, 22, 8, 21), (24, 27, 26, 17),
    (29, 18, 13, 6), (30, 20, 22, 2), (12, 2, 20, 8), (29, 15, 25, 20),
    (13, 18, 4, 16), (21, 7, 30, 10), (27, 0, 8, 30), (7, 1, 16, 2),
    (17, 9, 17, 0), (13, 9, 14, 8), (6, 20, 26, 27), (28, 0, 23, 30),
    (7, 18, 9, 17), (17, 30, 25, 27), (18, 15, 29, 25), (10, 16, 29, 14),
    (19, 28, 12, 17), (25, 28, 23, 24), (11, 17, 4, 0), (20, 11, 25, 19),
    (0, 16, 21, 19), (1, 25, 16, 1), (16, 13, 20, 26), (19, 16, 26, 28),
    (16, 24, 30, 26), (22, 21, 3, 28), (4, 27, 30, 10), (10, 11, 19, 12),
    (23, 27, 21, 6), (23, 2, 22, 4), (20, 13, 26, 17), (0, 26, 0, 4),
    (26, 25, 26, 5), (23, 0, 29, 3), (22, 7, 5, 28), (18, 13, 5, 28),
    (18, 0, 14, 16), (19, 30, 23, 7), (15, 20, 11, 27), (15, 23, 26, 19),
    (30, 17, 28, 6), (14, 13, 4, 24), (27, 8, 27, 29), (19, 12, 21, 13),
    (10, 4, 4, 2), (26, 22, 5, 6), (8, 11, 6, 15), (17, 19, 3, 28),
    (4, 18, 3, 17), (17, 9, 2, 24), (17, 0, 14, 3), (1, 26, 21, 17),
    (11, 10, 16, 10), (14, 18, 14, 3), (25, 20, 23, 24), (17, 12, 15, 13),
    (16, 4, 19, 22), (28, 23, 0, 30), (2, 28, 5, 12), (23, 6, 6, 18),
    (7, 28, 13, 7), (20, 1, 28, 21), (0, 16, 16, 22), (26, 25, 26, 17),
    (10, 16, 26, 28), (9, 15, 26, 4), (28, 10, 17, 21), (1, 21, 3, 14),
    (25, 28, 1, 1), (18, 3, 10, 11), (4, 10, 30, 24), (26, 12, 21, 13),
    (5, 17, 4, 25), (20, 1, 23, 7), (8, 22, 1, 27), (27, 20, 7, 19),
    (28, 30, 21, 22), (29, 21, 26, 10), (21, 19, 11, 3), (13, 18, 20, 30),
    (27, 27, 6, 29), (9, 15, 1, 19), (25, 10, 6, 15), (30, 8, 22, 7),
    (28, 17, 21, 27), (2, 14, 4, 16), (30, 4, 27, 12), (18, 0, 3, 27),
    (2, 18, 8, 1), (6, 7, 29, 14), (30, 0, 0, 17), (10, 17, 17, 10),
    (21, 5, 4, 14), (24, 11, 8, 6), (17, 1, 16, 17), (7, 14, 22, 11),
    (26, 13, 17, 30), (16, 1, 12, 28), (23, 29, 21, 29), (4, 23, 12, 5),
    (2, 4, 30, 4), (23, 28, 12, 22), (16, 29, 2, 24), (23, 4, 15, 12),
    (20, 3, 11, 29), (19, 2, 17, 7), (14, 21, 12, 30), (14, 10, 11, 6),
    (18, 1, 13, 14), (13, 14, 17, 5), (2, 18, 16, 0), (17, 28, 14, 21),
    (2, 7, 27, 30), (21, 22, 10, 7), (19, 14, 16, 29), (25, 3, 5, 26),
    (14, 11, 14, 23), (1, 14, 11, 9), (8, 30, 27, 6), (15, 4, 30, 27),
    (14, 15, 9, 1), (20, 9, 11, 30), (17, 18, 27, 1), (6, 13, 2, 26),
    (25, 19, 3, 9), (4, 17, 7, 18), (28, 16, 14, 9), (5, 25, 23, 0),
    (25, 23, 17, 24), (14, 20, 2, 20), (17, 29, 1, 9), (11, 23, 10, 17),
    (14, 25, 21, 27), (8, 13, 24, 6), (19, 7, 15, 19), (19, 6, 15, 24),
    (15, 1, 30, 3), (7, 14, 23, 17), (15, 21, 28, 17), (13, 19, 0, 28),
    (0, 26, 1, 0), (2, 30, 9, 19), (11, 24, 3, 1), (17, 22, 2, 25),
    (13, 26, 19, 19), (26, 3, 2, 25), (10, 27, 2, 21), (15, 26, 10, 1),
    (23, 1, 26, 2), (17, 23, 13, 30), (6, 27, 0, 18), (22, 9, 2, 30),
    (23, 21, 4, 8), (28, 29, 6, 2), (9, 0, 4, 5), (28, 26, 23, 1),
    (16, 22, 19, 3), (12, 3, 28, 12), (20, 20, 15, 16), (14, 3, 12, 25),
    (12, 8, 15, 14), (3, 27, 27, 25), (2, 27, 6, 26), (26, 19, 26, 12),
    (17, 3, 30, 20), (7, 19, 23, 5), (28, 17, 13, 1), (10, 8, 2, 17),
    (4, 29, 6, 24), (4, 4, 23, 16), (26, 22, 18, 19), (2, 4, 4, 25),
    (8, 0, 23, 11), (21, 13, 9, 21), (22, 28, 2, 14), (19, 24, 29, 11),
    (3, 6, 3, 29), (6, 27, 26, 23), (23, 24, 20, 21), (10, 1, 8, 28),
    (8, 29, 8, 28), (2, 4, 13, 11), (2, 14, 25, 3), (22, 24, 5, 11),
    (29, 19, 26, 9), (2, 27, 4, 17), (0, 25, 10, 12), (28, 17, 22, 9),
    (6, 18, 14, 19), (9, 2, 8, 24), (11, 28, 11, 25), (6, 4, 29, 15),
    (24, 8, 21, 20), (15, 11, 24, 1), (15, 21, 2, 8), (29, 19, 26, 15),
    (11, 5, 14, 8), (2, 14, 6, 0), (13, 22, 14, 17), (24, 22, 14, 19),
    (28, 11, 11, 5), (28, 29, 5, 19), (1, 7, 24, 19), (13, 3, 10, 28),
    (29, 3, 20, 15), (4, 14, 6, 28), (9, 11, 27, 23), (27, 1, 9, 29),
    (11, 5, 30, 19), (27, 25, 20, 10), (15, 28, 25, 29), (8, 22, 6, 13),
    (29, 23, 28, 19), (25, 20, 3, 26), (15, 3, 14, 5), (29, 6, 24, 17),
    (28, 12, 13, 27), (23, 17, 28, 17), (9, 23, 4, 27), (0, 30, 2, 8),
    (30, 29, 19, 4), (8, 4, 18, 22), (6, 21, 1, 20), (26, 18, 19, 24),
    (15, 29, 1, 0), (14, 28, 21, 5), (18, 27, 27, 18), (30, 3, 22, 29),
    (15, 29, 28, 26), (3, 11, 4, 16), (17, 9, 30, 30), (15, 28, 16, 10)]

/-- The 256 comparisons in order. -/
def all : List PatchTest :=
  places.map fun (firstX, firstY, secondX, secondY) =>
    { firstX, firstY, secondX, secondY }

end PatchTest

/--
Sums of brightness over the rectangles that start in the top left corner: the
entry in column `x` and row `y` covers the cells left of `x` and above `y`.
Entries are not limited to a word of 32 bits, which pictures of more than 2^24
cells can exceed; the means of windows are the same in words that wrap around.
-/
abbrev BrightnessSums := Raster Nat

namespace BrightnessSums

/-- Add the entry that closes one more cell. -/
def close (gray : GrayPicture) (sums : BrightnessSums) (point : Point) :
    BrightnessSums :=
  let x := point.x
  let y := point.y
  sums.set (x + 1) (y + 1)
    ((gray.getD x y 0).toNat + sums.getD x (y + 1) 0 +
      sums.getD (x + 1) y 0 - sums.getD x y 0)

/-- The sums of a gray picture. -/
def ofGray (gray : GrayPicture) : BrightnessSums :=
  gray.points.foldl (close gray)
    (Raster.filled (gray.width + 1) (gray.height + 1) 0)

/--
The sum over the cells from `left` up to but without `right`, and from `top` up
to but without `bottom`.
-/
def sumOver (sums : BrightnessSums) (left top right bottom : Nat) : Nat :=
  sums.getD right bottom 0 + sums.getD left top 0 -
    sums.getD left bottom 0 - sums.getD right top 0

/--
The mean brightness, rounded down, of the window of up to 5 by 5 cells around a
cell; the window ends at the right and bottom edges of the picture.
-/
def mean (sums : BrightnessSums) (x y : Nat) : Nat :=
  let left := x - 2
  let top := y - 2
  let right := min (x + 3) (sums.width - 1)
  let bottom := min (y + 3) (sums.height - 1)
  sums.sumOver left top right bottom / ((right - left) * (bottom - top))

end BrightnessSums

/-- The outcomes of the comparisons around a keypoint, in two words. -/
structure Signature where
  first : BitVec 128
  second : BitVec 128
deriving DecidableEq, Repr

namespace Signature

/--
The outcome of one comparison around a cell: the first window is darker than the
second.
-/
def outcome (sums : BrightnessSums) (point : Point) (test : PatchTest) : Bool :=
  let cornerX := point.x - Keypoint.patchRadius
  let cornerY := point.y - Keypoint.patchRadius
  decide (sums.mean (cornerX + test.firstX + 1) (cornerY + test.firstY + 1) <
    sums.mean (cornerX + test.secondX + 1) (cornerY + test.secondY + 1))

/-- Append an outcome to a word and shift the word. -/
def shiftIn (word : BitVec 128) (outcome : Bool) : BitVec 128 :=
  (if outcome then word + 1 else word) <<< 1

/-- The word of some outcomes. -/
def word (outcomes : List Bool) : BitVec 128 :=
  outcomes.foldl shiftIn 0

/-- The signature of the patch around a cell. -/
def ofPatch (sums : BrightnessSums) (point : Point) : Signature :=
  let outcomes := PatchTest.all.map (outcome sums point)
  { first := word (outcomes.take 128), second := word (outcomes.drop 128) }

/-- A cell is too close to an edge of a picture for the windows of its patch. -/
def TooClose (gray : GrayPicture) (point : Point) : Prop :=
  point.x ≤ Keypoint.patchRadius ∨ point.y ≤ Keypoint.patchRadius ∨
    gray.width ≤ point.x + Keypoint.patchRadius ∨
    gray.height ≤ point.y + Keypoint.patchRadius

instance (gray : GrayPicture) (point : Point) :
    Decidable (TooClose gray point) :=
  inferInstanceAs (Decidable (_ ∨ _ ∨ _ ∨ _))

/--
The signatures of the patches around some cells.  Cells too close to an edge are
left out.
-/
def describe (gray : GrayPicture) (points : List Point) : List Signature :=
  let sums := BrightnessSums.ofGray gray
  points.filterMap fun point =>
    if TooClose gray point then none else some (ofPatch sums point)

/--
The bits of a signature, those of the first word before those of the second, the
lowest bit of each word first.
-/
def bits (signature : Signature) : List Bool :=
  (List.range 128).map signature.first.getLsbD ++
    (List.range 128).map signature.second.getLsbD

/-- The number of bits in which two signatures differ. -/
def hamming (first second : Signature) : Nat :=
  ((first.bits.zip second.bits).filter fun pair => pair.1 != pair.2).length

end Signature

end ScreenCompare
