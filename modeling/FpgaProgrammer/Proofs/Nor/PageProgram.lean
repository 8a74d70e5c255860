import FpgaProgrammer.Proofs.Nor.ReadBack

/-!
# Programming a page

A page program takes an address and bytes. The first byte goes to the address and the others to the
cells after it; at the end of the page of 256 bytes, it goes on at the start of that page. So the
bytes of a long program fall on the same cells again and again.

* `Flash.bytesOn`: the bytes that fall on a cell, and `Flash.programmed`: what they leave of its
  value. This is idempotent and commutes (`Flash.programmed_self`, `Flash.programmed_comm`).
* `Flash.byte?_program`: what is in its cells after a page program with a write enable before it.
* `Flash.pageProgram_masks`: a page program and those that come after it.
-/

namespace FpgaProgrammer.Nor.Flash

variable {flash : Flash} {address cell : Nat} {data : Bytes}

/-! ## The bytes that fall on a cell -/

/-- The bytes that fall on a cell of the page when they are programmed from an address on. -/
def bytesOn (cell address : Nat) (data : Bytes) : Bytes :=
  (data.zipIdx address).filterMap fun (byte, place) =>
    if place % 256 = cell % 256 then some byte else none

/-- The first byte falls on a cell if its address is that of the cell within the page. -/
theorem bytesOn_cons (cell address : Nat) (byte : UInt8) (data : Bytes) :
    bytesOn cell address (byte :: data) =
      if address % 256 = cell % 256 then byte :: bytesOn cell (address + 1) data
      else bytesOn cell (address + 1) data := by
  simp only [bytesOn, List.zipIdx_cons, List.filterMap_cons]
  split <;> simp_all

/-- What a program leaves of the value of a cell: in its page, the bits that are set in all bytes
that fall on the cell. -/
def programmed (address : Nat) (data : Bytes) (cell : Nat) (value : UInt8) : UInt8 :=
  if cell / 256 = address / 256 then (bytesOn cell address data).foldl (· &&& ·) value else value

/-- No byte falls on a cell of another page. -/
theorem pageMask_of_other_page {page offset : Nat} (hpage : cell / 256 ≠ page) :
    pageMask page cell offset data = erasedByte := by
  induction data generalizing offset with
  | nil => rfl
  | cons byte data ih =>
    have hother : page * 256 + offset % 256 ≠ cell := by omega
    rw [pageMask, if_neg hother, ih, and_erasedByte]

/-- On a cell of the page, all bytes fall that are programmed at its place in the page. -/
theorem and_pageMask {page offset : Nat} (hpage : cell / 256 = page)
    (hoffset : offset % 256 = address % 256) (value : UInt8) :
    value &&& pageMask page cell offset data =
      (bytesOn cell address data).foldl (· &&& ·) value := by
  induction data generalizing offset address value with
  | nil => simp [pageMask, bytesOn]
  | cons byte data ih =>
    have hhere : page * 256 + offset % 256 = cell ↔ address % 256 = cell % 256 := by omega
    have hnext : (offset + 1) % 256 = (address + 1) % 256 := by omega
    simp only [pageMask, bytesOn_cons, hhere]
    split
    · rw [List.foldl_cons, ← ih hnext, UInt8.and_assoc]
    · rw [erasedByte_and, ih hnext]

/-- The bytes that fall on a cell mask it together, as the page program does. -/
theorem programmed_eq (address : Nat) (data : Bytes) (cell : Nat) (value : UInt8) :
    programmed address data cell value =
      value &&& pageMask (address / 256) cell (address % 256) data := by
  unfold programmed
  split
  · next hpage => rw [and_pageMask hpage (Nat.mod_mod address 256)]
  · next hother => rw [pageMask_of_other_page hother, and_erasedByte]

/-- Bits that were cleared stay clear, and no others are cleared the second time. -/
theorem programmed_self (address : Nat) (data : Bytes) (cell : Nat) (value : UInt8) :
    programmed address data cell (programmed address data cell value) =
      programmed address data cell value := by
  simp only [programmed_eq, UInt8.and_assoc, UInt8.and_self]

/-- Two programs clear the same bits in either order, on whatever pages they are. -/
theorem programmed_comm (first second : Nat) (firstData secondData : Bytes) (cell : Nat)
    (value : UInt8) :
    programmed second secondData cell (programmed first firstData cell value) =
      programmed first firstData cell (programmed second secondData cell value) := by
  simp only [programmed_eq]
  ac_rfl

/-- After a page program, a cell holds what the bytes that fall on it have left of it. -/
theorem byte?_programPage_eq (memory : Memory) (address : Nat) (data : Bytes) (cell : Nat) :
    (programPage memory (address / 256) (address % 256) data).byte? cell =
      (memory.byte? cell).map (programmed address data cell) := by
  rw [byte?_programPage]
  congr 1
  ext value : 1
  exact (programmed_eq address data cell value).symm

/-! ## Transactions -/

/-- The bytes of a page program. -/
def programBytes (address : Nat) (data : Bytes) : Bytes :=
  0x02 :: addressBytes address ++ data

/-- The chip after a page program with a write enable before it. -/
def program (flash : Flash) (address : Nat) (data : Bytes) : Flash :=
  flash.transactAll [[0x06], programBytes address data]

/-- A page program with a write enable before it changes the array of an unprotected chip as it
should, whether the latch was set or not. -/
theorem Holds.program {memory : Memory} {enabled : Bool} (h : Holds flash memory enabled)
    (haddress : address < 0x1000000) (hdata : data ≠ []) :
    Holds (flash.program address data)
      (programPage memory (address / 256) (address % 256) data) false :=
  h.writeEnable.pageProgram haddress hdata

/-- What is in the cells after a page program with a write enable before it. -/
theorem byte?_program (hprotection : flash.protection = 0) (haddress : address < 0x1000000)
    (hdata : data ≠ []) (cell : Nat) :
    (flash.program address data).protection = 0 ∧
      (flash.program address data).memory.byte? cell =
        (flash.memory.byte? cell).map (programmed address data cell) := by
  have hstart : Holds flash flash.memory false := ⟨rfl, hprotection, nofun⟩
  have hafter := hstart.program haddress hdata
  exact ⟨hafter.protection_eq, by rw [hafter.memory_eq, byte?_programPage_eq]⟩

/-- A page program of an unprotected chip whose latch is set clears, in each cell of the page, the
bits that are clear in one of the bytes that fall on it. It leaves every other cell as it was,
clears the latch, and makes the chip busy. When the same is programmed again, no cell changes; and
two programs leave the same in every cell, whichever comes first. -/
theorem pageProgram_masks {flash : Flash} {address : Nat} {data : Bytes}
    (henabled : flash.writeEnabled = true) (hprotection : flash.protection = 0)
    (haddress : address < 0x1000000) (hdata : data ≠ []) :
    let after := (flash.transact (programBytes address data)).2
    (∀ cell, after.memory.byte? cell =
      if cell / 256 = address / 256 then
        (flash.memory.byte? cell).map fun old => (bytesOn cell address data).foldl (· &&& ·) old
      else flash.memory.byte? cell) ∧
    after.config = flash.config ∧ after.protection = 0 ∧ after.writeEnabled = false ∧
    after.busy = flash.config.busyReads ∧
    (∀ cell, (after.program address data).memory.byte? cell = after.memory.byte? cell) ∧
    ∀ (other : Nat) (otherData : Bytes), other < 0x1000000 → otherData ≠ [] →
      ∀ cell, ((flash.program address data).program other otherData).memory.byte? cell =
        ((flash.program other otherData).program address data).memory.byte? cell := by
  intro after
  have hafter : after = _ := transact_pageProgram henabled hprotection haddress hdata
  -- The chip is left unprotected, so that it can be programmed once more.
  have hprotection' : after.protection = 0 := by rw [hafter, hprotection]
  have hcells : ∀ cell, after.memory.byte? cell =
      (flash.memory.byte? cell).map (programmed address data cell) := by
    simp [hafter, byte?_programPage_eq]
  refine ⟨fun cell => ?_, by rw [hafter], hprotection', by rw [hafter], by rw [hafter],
    fun cell => ?_, fun other otherData hother hotherData cell => ?_⟩
  · rw [hcells]
    unfold programmed
    split <;> simp
  · rw [(byte?_program hprotection' haddress hdata cell).2, hcells]
    simp [Function.comp_def, programmed_self]
  · obtain ⟨hfirst, hbytes⟩ := byte?_program hprotection haddress hdata cell
    obtain ⟨hsecond, hotherBytes⟩ := byte?_program hprotection hother hotherData cell
    rw [(byte?_program hfirst hother hotherData cell).2, hbytes,
      (byte?_program hsecond haddress hdata cell).2, hotherBytes]
    simp [Function.comp_def, programmed_comm]

/-- A program of four bytes goes around the end of a page of 256 cells, of which the last two are
missing; and it commutes with one that falls on the same cells. -/
theorem pageProgram_masks_around :
    let flash : Flash := { powerUp { size := 510 } with writeEnabled := true }
    let after := (flash.transact (programBytes 509 [0xF1, 0x22, 0x33, 0x1F])).2
    after.memory.byte? 509 = some 0xF1 ∧ after.memory.byte? 510 = none ∧
    after.memory.byte? 256 = some 0x1F ∧ after.memory.byte? 257 = some 0xFF ∧
    ∀ cell, ((flash.program 509 [0xF1, 0x22, 0x33, 0x1F]).program 256 [0xF8]).memory.byte? cell =
      ((flash.program 256 [0xF8]).program 509 [0xF1, 0x22, 0x33, 0x1F]).memory.byte? cell := by
  intro flash after
  obtain ⟨hcells, -, -, -, -, -, hcomm⟩ := @pageProgram_masks flash 509 [0xF1, 0x22, 0x33, 0x1F]
    rfl rfl (by decide) (by decide)
  have herased : ∀ cell < 510, flash.memory.byte? cell = some 0xFF := by
    intro cell hcell
    simp [flash, powerUp, Memory.blank, Memory.byte?, hcell, erasedByte]
  have hmissing : flash.memory.byte? 510 = none := by
    simp [flash, powerUp, Memory.blank, Memory.byte?]
  refine ⟨?_, ?_, ?_, ?_, hcomm 256 [0xF8] (by decide) (by decide)⟩
  · rw [hcells, if_pos (by decide), herased 509 (by decide)]
    rfl
  · rw [hcells, if_pos (by decide), hmissing]
    rfl
  · rw [hcells, if_pos (by decide), herased 256 (by decide)]
    rfl
  · rw [hcells, if_pos (by decide), herased 257 (by decide)]
    rfl

end FpgaProgrammer.Nor.Flash
