import TorusAutomaton.View.Image

/-!
# Image files

An image is stored as a PNG file with one grey byte a pixel. The pixels are not compressed: the data
stream consists of stored blocks.
-/

namespace TorusAutomaton.View.Png

open TorusAutomaton

abbrev Bytes := List UInt8

/-- Four bytes, the highest first. -/
def bytes32 (n : Nat) : Bytes :=
  [(n >>> 24).toUInt8, (n >>> 16).toUInt8, (n >>> 8).toUInt8, n.toUInt8]

/-- Two bytes, the lowest first. -/
def bytes16 (n : Nat) : Bytes := [n.toUInt8, (n >>> 8).toUInt8]

def crcStep (crc : UInt32) : UInt32 :=
  if crc &&& 1 = 1 then (crc >>> 1) ^^^ 0xEDB88320 else crc >>> 1

/-- The checksum at the end of a chunk. -/
def crc (data : Bytes) : UInt32 :=
  (data.foldl
    (fun crc b => (List.range 8).foldl (fun crc _ => crcStep crc) (crc ^^^ b.toUInt32))
    0xFFFFFFFF) ^^^ 0xFFFFFFFF

/-- The checksum at the end of the data stream: two sums modulo 65521. -/
def adler (data : Bytes) : Nat :=
  let (a, b) : Nat × Nat :=
    data.foldl
      (fun sums byte =>
        let a := (sums.1 + byte.toNat) % 65521
        (a, (sums.2 + a) % 65521))
      (1, 0)
  b <<< 16 + a

/-- Length, type, data and checksum. -/
def chunk (type : String) (data : Bytes) : Bytes :=
  let body := type.toUTF8.toList ++ data
  bytes32 data.length ++ body ++ bytes32 (crc body).toNat

/-- Stored blocks, the last of which is marked; `n` of them are enough. -/
def storedBlocks : Nat → Bytes → Bytes
  | 0, _ => []
  | n + 1, data =>
    let part := data.take 65535
    let rest := data.drop 65535
    let last : UInt8 := if rest.isEmpty then 1 else 0
    last :: (bytes16 part.length ++ bytes16 (65535 - part.length) ++ part)
      ++ (if rest.isEmpty then [] else storedBlocks n rest)

/-- The rows of pixels, each after a byte that says that it is not filtered. -/
def scanlines (i : Image) : Bytes :=
  i.rows.flatMap fun row => 0 :: row.map fun white => if white then 255 else 0

def encode (i : Image) : ByteArray :=
  let data := scanlines i
  let stream :=
    [0x78, 0x01] ++ storedBlocks (data.length / 65535 + 1) data ++ bytes32 (adler data)
  let file :=
    [0x89, 0x50, 0x4E, 0x47, 0x0D, 0x0A, 0x1A, 0x0A]
      ++ chunk "IHDR" (bytes32 i.width ++ bytes32 i.height ++ [8, 0, 0, 0, 0])
      ++ chunk "IDAT" stream ++ chunk "IEND" []
  ByteArray.mk file.toArray

end TorusAutomaton.View.Png
