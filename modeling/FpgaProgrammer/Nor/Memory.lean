import FpgaProgrammer.Bytes
import Std.Data.ExtTreeMap

/-!
# The cell array of a NOR flash

An erased cell reads `0xFF`; programming can only clear bits, and erasing sets them all again.
Only cells that are not erased are stored, so a large flash costs nothing while it is empty.
-/

namespace FpgaProgrammer.Nor

/-- The value of an erased cell. -/
def erasedByte : UInt8 := 0xFF

/-- The cells of a flash. -/
structure Memory where
  /-- The number of cells. -/
  size : Nat
  /-- The cells that are not erased. -/
  cells : Std.ExtTreeMap Nat UInt8

namespace Memory

/-- A flash of the given size, all erased. -/
def blank (size : Nat) : Memory :=
  { size, cells := ∅ }

/-- The value of a cell, if it exists. -/
def byte? (memory : Memory) (address : Nat) : Option UInt8 :=
  if address < memory.size then some (memory.cells.getD address erasedByte) else none

/-- Clears the bits of a cell that are clear in `byte`. Nothing happens outside the array. -/
def programByte (memory : Memory) (address : Nat) (byte : UInt8) : Memory :=
  match memory.byte? address with
  | none => memory
  | some old =>
    let value := old &&& byte
    if value == erasedByte then memory
    else { memory with cells := memory.cells.insert address value }

/-- Erases the cells from `start` up to, but not including, `stop`. -/
def eraseRange (memory : Memory) (start stop : Nat) : Memory :=
  { memory with
    cells := memory.cells.filterMap fun address byte =>
      if start ≤ address ∧ address < stop then none else some byte }

/-- Erases all cells. -/
def eraseAll (memory : Memory) : Memory :=
  blank memory.size

/-- The values of at most `length` cells from `start` on, as far as there are cells. -/
def slice (memory : Memory) (start length : Nat) : Bytes :=
  (List.range' start (min length (memory.size - start))).map fun address =>
    memory.cells.getD address erasedByte

end Memory

end FpgaProgrammer.Nor
