import FpgaProgrammer.Bytes
import Std.Data.ExtTreeMap

/-!
# Configuration images

An `Image` is what gets written to a device: a payload, its length in bits, header fields, and
the 16-bit checksum that the device is expected to report after loading. Two kinds of file give
an image: a `Bitstream`, whose header names the device it is made for, and a raw blob.
-/

namespace FpgaProgrammer

/-- The origin of an image. -/
inductive ImageKind where
  /-- A bitstream with header fields. -/
  | bitstream
  /-- A blob without a header, fit for an external flash only. -/
  | raw
  deriving Repr, DecidableEq

/-- What a programmer reads of an image. -/
structure Image where
  /-- The origin. -/
  kind : ImageKind
  /-- The payload; bit 0 of the first byte is shifted first. -/
  data : Bytes
  /-- The length of the payload in bits. It may differ from what `data` holds. -/
  bitLength : Nat
  /-- The value of a header field. -/
  header? : String → Option String
  /-- The checksum of the payload. -/
  checksum : UInt16

namespace Image

/-- The number of bits that can be shifted: those announced, as far as the data holds them. -/
def loadableBits (image : Image) : Nat :=
  min image.bitLength (image.data.length * 8)

/-- The whole bytes that can be stored: those announced, as far as the data holds them. -/
def storableBytes (image : Image) : Bytes :=
  image.data.take (min (image.bitLength / 8) image.data.length)

end Image

/-- Adds a payload, read as 16-bit words, to a sum. -/
def addWords (sum : UInt16) : Bytes → UInt16
  | [] => sum
  | [high] => sum + high.toUInt16 <<< 8
  | high :: low :: rest => addWords (sum + (high.toUInt16 <<< 8 ||| low.toUInt16)) rest

/-- The sum of the payload read as 16-bit words, high half first, modulo `2 ^ 16`. A last odd byte
counts as the high half of a word. -/
def checksum16 (data : Bytes) : UInt16 :=
  addWords 0 data

/-- A bitstream: its payload, its header fields and its checksum. -/
structure Bitstream where
  /-- The payload. -/
  data : Bytes
  /-- The header fields by name. -/
  headers : Std.ExtTreeMap String String
  /-- The checksum, as computed or as declared by whoever read the file. -/
  checksum : UInt16

namespace Bitstream

/-- The bitstream with the given payload, its checksum computed and no header fields. -/
def ofData (data : Bytes) : Bitstream :=
  { data, headers := ∅, checksum := checksum16 data }

/-- Sets a header field. A later value replaces an earlier one. -/
def withHeader (bitstream : Bitstream) (key value : String) : Bitstream :=
  { bitstream with headers := bitstream.headers.insert key value }

/-- Declares the checksum. -/
def withChecksum (bitstream : Bitstream) (checksum : UInt16) : Bitstream :=
  { bitstream with checksum }

/-- The header fields, sorted by name. -/
def headerList (bitstream : Bitstream) : List (String × String) :=
  bitstream.headers.toList

/-- The bitstream as an image. -/
def toImage (bitstream : Bitstream) : Image where
  kind := .bitstream
  data := bitstream.data
  bitLength := bitstream.data.length * 8
  header? key := bitstream.headers[key]?
  checksum := bitstream.checksum

end Bitstream

/-- A blob as an image. -/
def Image.ofRaw (data : Bytes) : Image where
  kind := .raw
  data := data
  bitLength := data.length * 8
  header? _ := none
  checksum := checksum16 data

end FpgaProgrammer
