import ScreenCompare.Color

/-!
# Brightness of a color

The brightness of a color is a weighted sum of its channels in single precision,
rounded to the nearest of 256 levels.  The channels are first scaled to the unit
interval, then weighted and added from red to blue; the order and the single
precision decide the level for a few hundred colors, so both belong to the rule.

Channels may have 8 or 16 bits.  A 16-bit sample is narrowed to 8 bits by
dividing by 257 and rounding to nearest.
-/

namespace ScreenCompare.Luma

/-- The single-precision number nearest to `1/255`. -/
def unitOf8Bit : Float32 := Float32.ofBits 0x3b808081

/-- The single-precision number nearest to `1/65535`. -/
def unitOf16Bit : Float32 := Float32.ofBits 0x37800080

/-- The share of red in the brightness, about `0.2126`. -/
def redWeight : Float32 := Float32.ofBits 0x3e59c05b

/-- The share of green in the brightness, about `0.7152`. -/
def greenWeight : Float32 := Float32.ofBits 0x3f3715fc

/-- The share of blue in the brightness, about `0.0722`. -/
def blueWeight : Float32 := Float32.ofBits 0x3d93cf75

/--
Round a level between 0 and 255 to the nearest whole level, halves upwards.
-/
def nearestLevel (level : Float32) : UInt8 :=
  let whole := level.toUInt8
  if Float32.ofBits 0x3f000000 ≤ level - whole.toFloat32 then whole + 1
  else whole

/-- The brightness of scaled channels. -/
def level (red green blue : Float32) : UInt8 :=
  let shade :=
    Float32.ofBits 0 + red * redWeight + green * greenWeight + blue * blueWeight
  nearestLevel (shade * Float32.ofBits 0x437f0000)

/-- The brightness of a color with 8-bit channels. -/
def ofColor (color : Color) : UInt8 :=
  level (color.red.toFloat32 * unitOf8Bit)
    (color.green.toFloat32 * unitOf8Bit)
    (color.blue.toFloat32 * unitOf8Bit)

/-- The brightness of a color with 16-bit channels. -/
def ofDeepColor (red green blue : UInt16) : UInt8 :=
  level (red.toFloat32 * unitOf16Bit)
    (green.toFloat32 * unitOf16Bit)
    (blue.toFloat32 * unitOf16Bit)

/-- Narrow a 16-bit sample to 8 bits. -/
def narrow (sample : UInt16) : UInt8 :=
  UInt8.ofNat ((sample.toNat + 128) / 257)

end ScreenCompare.Luma

namespace ScreenCompare.Picture

/-- The brightness of every cell. -/
def luma (picture : Picture) : GrayPicture :=
  picture.map Luma.ofColor

end ScreenCompare.Picture
