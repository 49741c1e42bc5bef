import ScreenCompare.Color.Hue

/-!
# Hue and saturation histograms

A histogram counts the cells of a picture in 256 hue bins times 256 saturation
bins.  A count stops at `2 ^ 53`, up to which every whole number has an exact
double-precision value.  The bins are the counts stretched to the unit interval,
so that the emptiest bin is at 0 and the fullest at 1.  A picture without cells
has an all-zero histogram.

Two histograms are compared by the chi-square distance with the first one as
reference: bins that are zero in the reference do not take part.
-/

namespace ScreenCompare

/-- The number of hue bins, and of saturation bins within each. -/
def binsPerAxis : Nat := 256

namespace Color

/--
The hue bin of a color: 256 bins spread over the 180 steps of a full turn.
-/
def hueBin (color : Color) : Nat :=
  min (color.hue * binsPerAxis / 180) (binsPerAxis - 1)

/-- The saturation bin of a color, one for each level. -/
def saturationBin (color : Color) : Nat :=
  min color.saturation (binsPerAxis - 1)

/-- The position of a color's bin, hue by hue. -/
def bin (color : Color) : Nat :=
  color.hueBin * binsPerAxis + color.saturationBin

end Color

/-- The largest count of a bin, `2 ^ 53`. -/
def largestCount : Nat := 0x20000000000000

namespace Picture

/-- Count the cells of a picture in each bin. -/
def binCounts (picture : Picture) : Array Nat :=
  picture.cells.foldl
    (fun counts color =>
      counts.modify color.bin fun count => min (count + 1) largestCount)
    (Array.replicate (binsPerAxis * binsPerAxis) 0)

end Picture

/-- A normalized hue and saturation histogram, hue by hue. -/
structure Histogram where
  bins : Array Float

namespace Histogram

/-- Stretch counts to the unit interval; equal counts everywhere give zeros. -/
def ofCounts (counts : Array Nat) : Histogram :=
  let fewest := counts.foldl min (counts.getD 0 0)
  let most := counts.foldl max 0
  let range := Float.ofNat (most - fewest)
  { bins := counts.map fun count =>
      if fewest < most then Float.ofNat (count - fewest) / range else 0 }

/-- The histogram of a picture. -/
def ofPicture (picture : Picture) : Histogram :=
  ofCounts picture.binCounts

/-- Add the contribution of one bin to a chi-square sum. -/
def addDeviation (total : Float) (reference other : Float) : Float :=
  if reference == 0 then total
  else total + (reference - other) * (reference - other) / reference

/--
The chi-square distance of a histogram from a reference.  The sum starts at
minus zero, which is also the distance from an all-zero reference.
-/
def chiSquare (reference other : Histogram) : Float :=
  (reference.bins.zip other.bins).foldl
    (fun total pair => addDeviation total pair.1 pair.2)
    (-0.0)

end Histogram

end ScreenCompare
