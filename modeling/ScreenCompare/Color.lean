import ScreenCompare.Raster

/-!
# Colors and pictures

A color has three 8-bit channels.  A picture is a raster of colors, a gray
picture a raster of brightness values.
-/

namespace ScreenCompare

/-- A color with red, green and blue channels. -/
structure Color where
  red : UInt8
  green : UInt8
  blue : UInt8
deriving DecidableEq, Repr, Inhabited

/-- A raster of colors. -/
abbrev Picture := Raster Color

/-- A raster of brightness values, 0 for black and 255 for white. -/
abbrev GrayPicture := Raster UInt8

namespace Color

/-- The color whose three channels all have the given brightness. -/
def ofGray (brightness : UInt8) : Color where
  red := brightness
  green := brightness
  blue := brightness

/-- The distance of two channel values. -/
def channelStep (first second : UInt8) : Nat :=
  max (first.toNat - second.toNat) (second.toNat - first.toNat)

/-- The largest difference in any channel. -/
def step (first second : Color) : Nat :=
  max (channelStep first.red second.red)
    (max (channelStep first.green second.green)
      (channelStep first.blue second.blue))

theorem channelStep_comm (first second : UInt8) :
    channelStep first second = channelStep second first := by
  simp [channelStep, Nat.max_comm]

theorem channelStep_lt (first second : UInt8) :
    channelStep first second < 256 := by
  have firstBound := first.toNat_lt
  have secondBound := second.toNat_lt
  unfold channelStep
  omega

theorem step_lt (first second : Color) :
    step first second < 256 := by
  have red := channelStep_lt first.red second.red
  have green := channelStep_lt first.green second.green
  have blue := channelStep_lt first.blue second.blue
  unfold step
  omega

end Color

end ScreenCompare
