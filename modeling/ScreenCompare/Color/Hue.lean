import ScreenCompare.Color

/-!
# Hue and saturation

Colors are compared by hue and saturation alone.  The hue is an angle counted in
steps of two degrees, so that a full turn has 180 steps; the saturation has 256
levels.  Both are quotients of whole numbers, rounded to nearest with halves
upwards.
-/

namespace ScreenCompare.Color

/-- The largest channel of a color. -/
def highest (color : Color) : Nat :=
  max (max color.red.toNat color.green.toNat) color.blue.toNat

/-- The smallest channel of a color. -/
def lowest (color : Color) : Nat :=
  min (min color.red.toNat color.green.toNat) color.blue.toNat

/-- The distance between the largest and the smallest channel. -/
def chroma (color : Color) : Nat :=
  color.highest - color.lowest

/--
The hue angle in degrees times the chroma, between 0 and a full turn.  Red is
at 0 degrees, green at 120 and blue at 240.
-/
def scaledAngle (color : Color) : Int :=
  let red : Int := color.red.toNat
  let green : Int := color.green.toNat
  let blue : Int := color.blue.toNat
  let chroma : Int := color.chroma
  let angle :=
    if color.highest = color.red.toNat then 60 * (green - blue)
    else if color.highest = color.green.toNat then
      120 * chroma + 60 * (blue - red)
    else
      240 * chroma + 60 * (red - green)
  if angle < 0 then angle + 360 * chroma else angle

/-- The hue in steps of two degrees; a color without chroma has hue 0. -/
def hue (color : Color) : Nat :=
  if color.chroma = 0 then 0
  else ((color.scaledAngle + color.chroma) / (2 * color.chroma)).toNat

/-- The saturation in 256 levels; black has saturation 0. -/
def saturation (color : Color) : Nat :=
  if color.highest = 0 then 0
  else (2 * 255 * color.chroma + color.highest) / (2 * color.highest)

end ScreenCompare.Color
