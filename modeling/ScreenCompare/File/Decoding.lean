import ScreenCompare.File.ImageData

/-!
# Decoding files

A file is a sequence of bytes, or an image in a lossless format that is kept as
its samples.  Of the bytes only the plainest image format is read here: the word
`farbfeld`, the width and the height as 32-bit numbers, and four 16-bit samples
for each cell, all with the highest byte first.
-/

namespace ScreenCompare

/-- The content of a file. -/
inductive FileContent where
  | bytes (bytes : List UInt8)
  | image (data : ImageData)

/-- Why a file holds no usable image. -/
inductive DecodeFault where
  | emptyFile
  | unknownFormat
  | truncated
  | emptyImage
deriving DecidableEq, Repr

namespace DecodeFault

/-- The reason in words. -/
def message : DecodeFault → String
  | emptyFile => "empty file"
  | unknownFormat => "The image format could not be determined"
  | truncated => "unexpected end of file"
  | emptyImage => "empty image"

end DecodeFault

/-- An image as the program works on it. -/
structure LoadedImage where
  color : Picture
  gray : GrayPicture

namespace Decoding

/-- The bytes with which a file of the plain format starts. -/
def magic : List UInt8 :=
  "farbfeld".toUTF8.toList

/-- The number with the given bytes, highest first. -/
def bigEndian (bytes : List UInt8) : Nat :=
  bytes.foldl (fun value byte => 256 * value + byte.toNat) 0

/--
The 16-bit samples with the given bytes; a single byte left over is dropped.
-/
def samples : List UInt8 → List UInt16
  | high :: low :: rest =>
      UInt16.ofNat (256 * high.toNat + low.toNat) :: samples rest
  | _ => []

/-- The cells with the given samples; samples that fill no cell are dropped. -/
def deepCells : List UInt16 → List (DeepColor × UInt16)
  | red :: green :: blue :: alpha :: rest =>
      ({ red, green, blue }, alpha) :: deepCells rest
  | _ => []

/-- Decode the bytes of a file. -/
def ofBytes (bytes : List UInt8) : Except DecodeFault ImageData :=
  if bytes.isEmpty then .error .emptyFile
  else if bytes.take magic.length ≠ magic then .error .unknownFormat
  else
    let rest := bytes.drop magic.length
    if rest.length < 8 then .error .truncated
    else
      let width := bigEndian (rest.take 4)
      let height := bigEndian ((rest.drop 4).take 4)
      if width = 0 ∨ height = 0 then .error .emptyImage
      else
        let cells := (deepCells (samples (rest.drop 8))).take (width * height)
        match Raster.ofArray? width height cells.toArray with
        | none => .error .truncated
        | some cells => .ok (.deepColorAlpha cells)

end Decoding

namespace FileContent

/-- Decode a file and convert its image to colors and brightness. -/
def decode (content : FileContent) : Except DecodeFault LoadedImage := do
  let data ←
    match content with
    | .bytes raw => Decoding.ofBytes raw
    | .image data => .ok data
  let loaded : LoadedImage := { color := data.colors, gray := data.luma }
  if loaded.color.IsEmpty then .error .emptyImage else .ok loaded

end FileContent

end ScreenCompare
