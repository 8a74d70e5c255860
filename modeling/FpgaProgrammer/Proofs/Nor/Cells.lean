import FpgaProgrammer.Proofs.Nor.Checked

/-!
# What is in the cells of a flash

The cells of an array are seen through `Memory.byte?`. There is one lemma for each operation on the
array, which says what every cell holds afterwards:

* `Memory.byte?_programByte`: a cell that is programmed keeps the bits that are set in both.
* `Memory.byte?_eraseRange`: the cells of a range that is erased read `0xFF`.
* `Flash.byte?_programPage`: a page program keeps in each cell what all bytes that fall on it have
  set (`Flash.pageMask`). Bytes that stay within the page are stored in one cell each
  (`Flash.byte?_programPage_of_erased`) and change no other (`Flash.byte?_programPage_of_outside`).

`Flash.Executes` is what a command can do to a chip: it sets or clears the latch, or it writes the
protection bits, or it writes cells; and only an erase sets a bit of a cell. Every command does one
of these (`Flash.executes`).
-/

namespace FpgaProgrammer.Nor

/-! ## The array -/

/-- An erased byte has all its bits set, and so masks nothing. -/
@[simp]
theorem and_erasedByte (byte : UInt8) : byte &&& erasedByte = byte :=
  UInt8.and_neg_one

@[simp]
theorem erasedByte_and (byte : UInt8) : erasedByte &&& byte = byte := by
  rw [UInt8.and_comm, and_erasedByte]

namespace Memory

variable {memory : Memory}

/-- Every cell of the array has a value. -/
theorem isSome_byte? {address : Nat} : (memory.byte? address).isSome ↔ address < memory.size := by
  unfold byte?
  split <;> simp_all

/-- Programming that leaves a cell erased leaves it as it was. -/
theorem and_eq_self_of_erased {old byte : UInt8} (h : old &&& byte = erasedByte) :
    old &&& byte = old := by
  calc old &&& byte
    _ = old &&& (old &&& byte) := by rw [← UInt8.and_assoc, UInt8.and_self]
    _ = old &&& erasedByte := by rw [h]
    _ = old := and_erasedByte old

/-- A cell that is programmed keeps the bits that are set in both. -/
theorem byte?_programByte (memory : Memory) (cell : Nat) (byte : UInt8) (address : Nat) :
    (memory.programByte cell byte).byte? address =
      if cell = address then (memory.byte? address).map (· &&& byte) else memory.byte? address := by
  by_cases heq : cell = address
  · subst heq
    cases hold : memory.byte? cell with
    | none => simp [programByte, hold]
    | some old =>
      have hlt : cell < memory.size := isSome_byte?.mp (by rw [hold]; rfl)
      simp only [programByte, hold, if_true, Option.map_some]
      -- An erased cell is not stored, so one that stays erased needs nothing.
      split
      · next herased => rw [hold, and_eq_self_of_erased (beq_iff_eq.mp herased)]
      · simp [byte?, hlt]
  · unfold programByte
    rw [if_neg heq]
    dsimp only
    repeat' split
    · rfl
    · rfl
    · simp [byte?, heq, Std.ExtTreeMap.getD_insert]

/-- The cells of the range read as erased. -/
theorem byte?_eraseRange (memory : Memory) (start stop address : Nat) :
    (memory.eraseRange start stop).byte? address =
      if start ≤ address ∧ address < stop then (memory.byte? address).map fun _ => erasedByte
      else memory.byte? address := by
  unfold eraseRange byte?
  simp only [Std.ExtTreeMap.getD_eq_getD_getElem?, Std.ExtTreeMap.getElem?_filterMap']
  by_cases hrange : start ≤ address ∧ address < stop
  · rw [if_pos hrange]
    split <;> simp
  · simp only [hrange, if_false]
    cases memory.cells[address]? <;> rfl

end Memory

/-- The commands that erase. -/
def Command.erases : Command → Bool
  | .eraseSector | .eraseBlock | .eraseChip => true
  | _ => false

namespace Flash

variable {flash : Flash}

/-! ## Pages -/

/-- What a page program leaves set in a cell: the bits that are set in all bytes that fall on it. -/
def pageMask (page address : Nat) : (offset : Nat) → Bytes → UInt8
  | _, [] => erasedByte
  | offset, byte :: rest =>
    (if page * 256 + offset % 256 = address then byte else erasedByte) &&&
      pageMask page address (offset + 1) rest

/-- A page program leaves in every cell the bits that the mask of the page has there, and creates no
cell. -/
theorem byte?_programPage (memory : Memory) (page offset : Nat) (data : Bytes) (address : Nat) :
    (programPage memory page offset data).byte? address =
      (memory.byte? address).map (· &&& pageMask page address offset data) := by
  induction data generalizing memory offset with
  | nil => simp [programPage, pageMask]
  | cons byte data ih =>
    rw [programPage, ih, Memory.byte?_programByte, pageMask]
    split <;> cases memory.byte? address <;> simp [UInt8.and_assoc]

/-- Bytes that stay within the page fall on no other cells. -/
theorem pageMask_of_outside {page address offset : Nat} {data : Bytes}
    (hwithin : offset + data.length ≤ 256)
    (houtside : address < 256 * page + offset ∨ 256 * page + offset + data.length ≤ address) :
    pageMask page address offset data = erasedByte := by
  induction data generalizing offset with
  | nil => rfl
  | cons byte data ih =>
    rw [List.length_cons] at hwithin houtside
    have hne : page * 256 + offset % 256 ≠ address := by omega
    rw [pageMask, if_neg hne, ih (by omega) (by omega), and_erasedByte]

/-- Bytes that stay within the page fall on one cell each. -/
theorem pageMask_of_within {page offset i : Nat} {data : Bytes}
    (hwithin : offset + data.length ≤ 256) {byte : UInt8} (hbyte : data[i]? = some byte) :
    pageMask page (256 * page + offset + i) offset data = byte := by
  induction data generalizing offset i with
  | nil => simp at hbyte
  | cons first data ih =>
    rw [List.length_cons] at hwithin
    rw [pageMask]
    cases i with
    | zero =>
      have hhere : page * 256 + offset % 256 = 256 * page + offset + 0 := by omega
      obtain rfl : first = byte := by simpa using hbyte
      rw [if_pos hhere, pageMask_of_outside (by omega) (by omega), and_erasedByte]
    | succ i =>
      have hlater : page * 256 + offset % 256 ≠ 256 * page + offset + (i + 1) := by omega
      have hrest : pageMask page (256 * page + (offset + 1) + i) (offset + 1) data = byte :=
        ih (by omega) (by simpa using hbyte)
      have hcell : 256 * page + offset + (i + 1) = 256 * page + (offset + 1) + i := by omega
      rw [if_neg hlater, hcell, hrest, erasedByte_and]

/-- Bytes that stay within the page change no other cells. -/
theorem byte?_programPage_of_outside {page address offset : Nat} {data : Bytes} (memory : Memory)
    (hwithin : offset + data.length ≤ 256)
    (houtside : address < 256 * page + offset ∨ 256 * page + offset + data.length ≤ address) :
    (programPage memory page offset data).byte? address = memory.byte? address := by
  rw [byte?_programPage, pageMask_of_outside hwithin houtside]
  simp

/-- Bytes that stay within the page are stored one after the other in erased cells. -/
theorem byte?_programPage_of_erased {page offset i : Nat} {data : Bytes} {memory : Memory}
    (hwithin : offset + data.length ≤ 256) {byte : UInt8} (hbyte : data[i]? = some byte)
    (herased : memory.byte? (256 * page + offset + i) = some erasedByte) :
    (programPage memory page offset data).byte? (256 * page + offset + i) = some byte := by
  simp [byte?_programPage, pageMask_of_within hwithin hbyte, herased]

/-! ## Commands -/

/-- What a command can do to a chip. -/
inductive Executes (flash : Flash) : Command → Flash → Prop
  /-- It sets or clears the latch. Only one command sets it. -/
  | latch {command : Command} {writeEnabled : Bool}
      (hset : writeEnabled = true → command = .writeEnable ∨ flash.writeEnabled = true) :
      Executes flash command { flash with writeEnabled }
  /-- It writes the protection bits, if the latch is set. -/
  | protects {command : Command} {protection : UInt8} (henabled : flash.writeEnabled = true) :
      Executes flash command { flash with protection }.beginWrite
  /-- It writes the array, if the latch is set and nothing is protected. Only an erase sets a bit
  of a cell. -/
  | writes {command : Command} {memory : Memory} (henabled : flash.writeEnabled = true)
      (hprotection : flash.protection = 0)
      (hcleared : command.erases = false → ∀ address, ∃ mask, memory.byte? address =
        (flash.memory.byte? address).map (· &&& mask)) :
      Executes flash command { flash with memory }.beginWrite

/-- A chip can be written while its latch is set and none of its bits protects it. -/
theorem isWritable_iff :
    flash.isWritable = true ↔ flash.writeEnabled = true ∧ flash.protection = 0 := by
  simp [isWritable]

/-- A command that does nothing leaves the latch as it is. -/
theorem executes_nothing (flash : Flash) (command : Command) : Executes flash command flash :=
  .latch Or.inr

/-- An erase of a block is one of the effects that an erasing command may have: it needs a chip that
can be written. -/
theorem executes_eraseBlock (flash : Flash) {command : Command} (hcommand : command.erases = true)
    (size : Nat) : Executes flash command (flash.eraseBlock size) := by
  unfold eraseBlock
  split
  · exact executes_nothing flash command
  · split
    · exact executes_nothing flash command
    · next hwritable =>
      obtain ⟨henabled, hprotection⟩ := isWritable_iff.mp (by simpa using hwritable)
      exact .writes henabled hprotection fun hnot => by simp [hcommand] at hnot

/-- A page program has one of the effects that its command may have, whatever was received. -/
theorem executes_pageProgram (flash : Flash) :
    Executes flash .pageProgram flash.pageProgram := by
  unfold pageProgram
  split
  · exact executes_nothing flash _
  · dsimp only
    split
    · exact executes_nothing flash _
    · next hrefused =>
      simp only [Bool.or_eq_true, not_or, Bool.not_eq_true', Bool.not_eq_false] at hrefused
      obtain ⟨henabled, hprotection⟩ := isWritable_iff.mp hrefused.1
      exact .writes henabled hprotection fun _ address => ⟨_, byte?_programPage ..⟩

/-- A write of the status register has one of the effects that its command may have: it needs the
latch to be set, and may be made of a protected chip as well. -/
theorem executes_writeStatus (flash : Flash) :
    Executes flash .writeStatus flash.writeStatus := by
  unfold writeStatus
  split
  · exact executes_nothing flash _
  · split
    · next henabled => exact .protects henabled
    · exact executes_nothing flash _

/-- An erase of the chip has one of the effects that its command may have. -/
theorem executes_eraseChip (flash : Flash) : Executes flash .eraseChip flash.eraseChip := by
  unfold eraseChip
  split
  · exact executes_nothing flash _
  · next hwritable =>
    obtain ⟨henabled, hprotection⟩ := isWritable_iff.mp (by simpa using hwritable)
    exact .writes henabled hprotection fun hnot => by cases hnot

/-- Whatever was received, a command does one of the things it can do. -/
theorem executes (flash : Flash) (command : Command) :
    Executes flash command (flash.execute command) := by
  cases command with
  | writeEnable => exact .latch fun _ => .inl rfl
  | writeDisable => exact .latch fun hset => by cases hset
  | writeStatus => exact executes_writeStatus flash
  | pageProgram => exact executes_pageProgram flash
  | eraseSector => exact executes_eraseBlock flash rfl _
  | eraseBlock => exact executes_eraseBlock flash rfl _
  | eraseChip => exact executes_eraseChip flash
  | read | readStatus | readId => exact executes_nothing flash _

end Flash

end FpgaProgrammer.Nor
