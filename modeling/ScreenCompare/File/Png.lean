import ScreenCompare.Color

/-!
# Writing pictures as PNG files

A picture is written with 8-bit red, green and blue samples, without filtering
and without compression: every row is preceded by a zero byte, and the rows are
cut into stored blocks.  Two checksums go with the data, one over each chunk and
one over the uncompressed rows.
-/

namespace ScreenCompare.Png

/-- The bytes of a 32-bit number, highest first. -/
def bigEndian (number : Nat) : List UInt8 :=
  [UInt8.ofNat (number / 0x1000000), UInt8.ofNat (number / 0x10000),
    UInt8.ofNat (number / 0x100), UInt8.ofNat number]

/-- Take one bit into the checksum of a chunk. -/
def shiftBit (checksum : UInt32) : UInt32 :=
  if checksum &&& 1 = 1 then (checksum >>> 1) ^^^ 0xedb88320
  else checksum >>> 1

/-- Take one byte into the checksum of a chunk. -/
def addByte (checksum : UInt32) (byte : UInt8) : UInt32 :=
  Nat.fold 8 (fun _ _ => shiftBit) (checksum ^^^ byte.toUInt32)

/-- The checksum of a chunk. -/
def chunkChecksum (bytes : List UInt8) : UInt32 :=
  bytes.foldl addByte 0xffffffff ^^^ 0xffffffff

/-- The modulus of the checksum of the rows. -/
def rowModulus : Nat := 65521

/-- The checksum of the rows: the sum of the bytes and the sum of these sums. -/
def rowChecksum (bytes : List UInt8) : Nat :=
  let sums := bytes.foldl
    (fun (sums : Nat × Nat) byte =>
      let first := (sums.1 + byte.toNat) % rowModulus
      (first, (sums.2 + first) % rowModulus))
    (1, 0)
  sums.2 * 0x10000 + sums.1

/-- The rows of a picture as bytes, each after a zero byte. -/
def rowBytes (picture : Picture) : List UInt8 :=
  (List.range picture.height).flatMap fun y =>
    0 :: (List.range picture.width).flatMap fun x =>
      let color := picture.getD x y default
      [color.red, color.green, color.blue]

/-- The largest number of bytes in a stored block. -/
def blockSize : Nat := 65535

/-- Bytes as stored blocks, the last of them marked as such. -/
def storedBlocks (bytes : List UInt8) : List UInt8 :=
  let size := min bytes.length blockSize
  let isLast := bytes.length ≤ blockSize
  let header : List UInt8 :=
    [if isLast then 1 else 0, UInt8.ofNat size, UInt8.ofNat (size / 256),
      UInt8.ofNat (255 - size % 256), UInt8.ofNat (255 - size / 256)]
  if isLast then header ++ bytes
  else header ++ bytes.take blockSize ++ storedBlocks (bytes.drop blockSize)
termination_by bytes.length
decreasing_by
  simp only [List.length_drop]
  unfold blockSize at *
  omega

/-- A chunk with its length, its name and its checksum. -/
def chunk (name : String) (content : List UInt8) : List UInt8 :=
  let named := name.toUTF8.toList ++ content
  bigEndian content.length ++ named ++ bigEndian (chunkChecksum named).toNat

/-- The bytes of a PNG file that shows a picture. -/
def encode (picture : Picture) : List UInt8 :=
  let rows := rowBytes picture
  [0x89, 0x50, 0x4e, 0x47, 0x0d, 0x0a, 0x1a, 0x0a] ++
    chunk "IHDR" (bigEndian picture.width ++ bigEndian picture.height ++
      [8, 2, 0, 0, 0]) ++
    chunk "IDAT" ([0x78, 0x01] ++ storedBlocks rows ++
      bigEndian (rowChecksum rows)) ++
    chunk "IEND" []

end ScreenCompare.Png
