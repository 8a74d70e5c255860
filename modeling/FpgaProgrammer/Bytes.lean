/-!
# Byte strings

Payloads, register values and SPI traffic are lists of bytes. This module holds the few
operations on them that the rest of the library shares: cutting to an exact length, 32-bit words
in either byte order, the bits of a byte in transmission order, and cutting into blocks.
-/

namespace FpgaProgrammer

/-- A string of bytes, first byte first. -/
abbrev Bytes := List UInt8

namespace Bytes

/-- Exactly `n` bytes: a longer string is cut, a shorter one is continued with `fill`. -/
def fitWith (fill : UInt8) (n : Nat) (bytes : Bytes) : Bytes :=
  bytes.take n ++ List.replicate (n - bytes.length) fill

/-- Exactly `n` bytes, a shorter string being continued with zeros. -/
def fit (n : Nat) (bytes : Bytes) : Bytes :=
  fitWith 0 n bytes

@[simp]
theorem length_fitWith (fill : UInt8) (n : Nat) (bytes : Bytes) :
    (fitWith fill n bytes).length = n := by
  simp [fitWith]
  omega

@[simp]
theorem length_fit (n : Nat) (bytes : Bytes) : (fit n bytes).length = n :=
  length_fitWith 0 n bytes

/-- A string that already has the wanted length is left alone. -/
theorem fitWith_of_length {fill : UInt8} {n : Nat} {bytes : Bytes} (h : bytes.length = n) :
    fitWith fill n bytes = bytes := by
  simp [fitWith, ← h]

/-! ## Words -/

/-- The four bytes of a word, least significant first. -/
def ofWordLE (word : UInt32) : Bytes :=
  [word.toUInt8, (word >>> 8).toUInt8, (word >>> 16).toUInt8, (word >>> 24).toUInt8]

/-- The four bytes of a word, most significant first. -/
def ofWordBE (word : UInt32) : Bytes :=
  (ofWordLE word).reverse

/-- The word whose bytes, least significant first, start the string; absent bytes count as
zero. -/
def wordLE (bytes : Bytes) : UInt32 :=
  (bytes.take 4).foldr (fun byte word => word <<< 8 ||| byte.toUInt32) 0

/-! ## Bits -/

/-- The bits of a byte, most significant first. -/
def bitsOf (byte : UInt8) : List Bool :=
  (List.range 8).map fun i => byte.toNat.testBit (7 - i)

/-- The byte with the given bits, most significant first. -/
def ofBits (bits : List Bool) : UInt8 :=
  bits.foldl (fun byte bit => byte * 2 + bit.toUInt8) 0

/-- The byte read from its other end. -/
def reverseBits (byte : UInt8) : UInt8 :=
  ofBits (bitsOf byte).reverse

@[simp]
theorem length_bitsOf (byte : UInt8) : (bitsOf byte).length = 8 := by
  simp [bitsOf]

/-! ## Blocks -/

/-- The number of blocks of `n` units that hold `total` units, the last one possibly short. -/
def blockCount (n total : Nat) : Nat :=
  (total + (n - 1)) / n

/-- The first `count` blocks of `n` elements. -/
def takeBlocks {α : Type} (n : Nat) : (count : Nat) → List α → List (List α)
  | 0, _ => []
  | count + 1, xs => xs.take n :: takeBlocks n count (xs.drop n)

/-- Consecutive blocks of `n` elements, the last one possibly shorter. -/
def blocks {α : Type} (n : Nat) (xs : List α) : List (List α) :=
  takeBlocks n (blockCount n xs.length) xs

end Bytes

end FpgaProgrammer
