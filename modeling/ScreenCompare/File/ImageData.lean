import ScreenCompare.Color.Luma

/-!
# Images as they are stored

A stored image has gray or color samples of 8 or 16 bits, with or without an
opacity sample.  The program works on its 8-bit colors and on its brightness;
opacity is dropped.  A gray image keeps its gray as brightness, and its colors
repeat it in all channels.
-/

namespace ScreenCompare

/-- A color with 16-bit channels. -/
structure DeepColor where
  red : UInt16
  green : UInt16
  blue : UInt16
deriving DecidableEq, Repr, Inhabited

/-- The samples of a stored image. -/
inductive ImageData where
  | gray (cells : Raster UInt8)
  | grayAlpha (cells : Raster (UInt8 × UInt8))
  | color (cells : Raster Color)
  | colorAlpha (cells : Raster (Color × UInt8))
  | deepGray (cells : Raster UInt16)
  | deepGrayAlpha (cells : Raster (UInt16 × UInt16))
  | deepColor (cells : Raster DeepColor)
  | deepColorAlpha (cells : Raster (DeepColor × UInt16))

namespace DeepColor

/-- The color with its channels narrowed to 8 bits. -/
def narrow (color : DeepColor) : Color where
  red := Luma.narrow color.red
  green := Luma.narrow color.green
  blue := Luma.narrow color.blue

/-- The brightness of a color. -/
def luma (color : DeepColor) : UInt8 :=
  Luma.ofDeepColor color.red color.green color.blue

end DeepColor

namespace ImageData

/-- The 8-bit colors of a stored image. -/
def colors : ImageData → Picture
  | gray cells => cells.map Color.ofGray
  | grayAlpha cells => cells.map fun cell => Color.ofGray cell.1
  | color cells => cells
  | colorAlpha cells => cells.map Prod.fst
  | deepGray cells => cells.map fun cell => Color.ofGray (Luma.narrow cell)
  | deepGrayAlpha cells =>
      cells.map fun cell => Color.ofGray (Luma.narrow cell.1)
  | deepColor cells => cells.map DeepColor.narrow
  | deepColorAlpha cells => cells.map fun cell => cell.1.narrow

/-- The brightness of a stored image. -/
def luma : ImageData → GrayPicture
  | gray cells => cells
  | grayAlpha cells => cells.map Prod.fst
  | color cells => cells.map Luma.ofColor
  | colorAlpha cells => cells.map fun cell => Luma.ofColor cell.1
  | deepGray cells => cells.map Luma.narrow
  | deepGrayAlpha cells => cells.map fun cell => Luma.narrow cell.1
  | deepColor cells => cells.map DeepColor.luma
  | deepColorAlpha cells => cells.map fun cell => cell.1.luma

end ImageData

end ScreenCompare
