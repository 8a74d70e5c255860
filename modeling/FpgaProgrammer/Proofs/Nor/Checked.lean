import FpgaProgrammer.Proofs.Bytes.Access
import FpgaProgrammer.Proofs.Spi.Transaction

/-!
# The flash with every access checked

`Flash.driven?`, `Flash.receive?`, `Flash.release?` and `Flash.transact?` are the operations of the
chip as a program over a fixed array: each is refused, with `none`, when an index lies outside of
the array or of the bytes received, or a difference of indices is negative.

A chip is `Whole` if its array has the configured size and no cell lies outside of it. Such a chip
refuses nothing and does what the operations without checks do (`release?_eq`, `transact?_eq`), and
it stays whole (`Whole.release`, `Whole.transact`).
-/

namespace FpgaProgrammer.Nor

open Bytes (difference? rest?)

/-! ## The array -/

namespace Memory

variable {memory : Memory}

/-- No cell lies outside of the array. -/
def Bounded (memory : Memory) : Prop :=
  ∀ address, memory.size ≤ address → memory.cells[address]? = none

/-- Erases the cells from `start` up to, but not including, `stop`, all of which must be in the
array. -/
def eraseRange? (memory : Memory) (start stop : Nat) : Option Memory :=
  if start ≤ stop ∧ stop ≤ memory.size then some (memory.eraseRange start stop) else none

/-- A blank array stores no cell, and so none outside. -/
theorem bounded_blank (size : Nat) : (blank size).Bounded :=
  fun _ _ => Std.ExtTreeMap.getElem?_empty

theorem size_programByte (memory : Memory) (address : Nat) (byte : UInt8) :
    (memory.programByte address byte).size = memory.size := by
  unfold programByte
  dsimp only
  split
  · rfl
  · split <;> rfl

/-- Only cells of the array are programmed. -/
theorem Bounded.programByte (h : memory.Bounded) (address : Nat) (byte : UInt8) :
    (memory.programByte address byte).Bounded := by
  intro outside houtside
  rw [size_programByte] at houtside
  unfold Memory.programByte
  dsimp only
  split
  · exact h outside houtside
  · rename_i old hold
    split
    · exact h outside houtside
    · -- The cell that is programmed could be read, so it lies in the array.
      have haddress : address < memory.size := by
        unfold byte? at hold
        split at hold
        · assumption
        · cases hold
      have hne : compare address outside ≠ .eq := by
        rw [ne_eq, Std.LawfulEqCmp.compare_eq_iff_eq]
        omega
      show (memory.cells.insert address _)[outside]? = none
      rw [Std.ExtTreeMap.getElem?_insert, if_neg hne]
      exact h outside houtside

/-- Only cells that were stored stay stored. -/
theorem Bounded.eraseRange (h : memory.Bounded) (start stop : Nat) :
    (memory.eraseRange start stop).Bounded := by
  intro outside houtside
  show (memory.cells.filterMap _)[outside]? = none
  rw [Std.ExtTreeMap.getElem?_filterMap', h outside houtside]
  rfl

/-- Outside of the array there is nothing to erase. -/
theorem Bounded.eraseRange_min (h : memory.Bounded) (start stop : Nat) :
    memory.eraseRange start (min stop memory.size) = memory.eraseRange start stop := by
  unfold Memory.eraseRange
  congr 1
  refine Std.ExtTreeMap.ext_getElem? fun address => ?_
  rw [Std.ExtTreeMap.getElem?_filterMap', Std.ExtTreeMap.getElem?_filterMap']
  rcases Nat.lt_or_ge address memory.size with hinside | houtside
  · have hbound : address < min stop memory.size ↔ address < stop := by omega
    simp only [hbound]
  · rw [h address houtside]
    rfl

/-- Nothing is erased in an empty range. -/
theorem eraseRange_of_le {start stop : Nat} (h : stop ≤ start) :
    memory.eraseRange start stop = memory := by
  have hcells : memory.cells.filterMap (fun address byte =>
      if start ≤ address ∧ address < stop then none else some byte) = memory.cells := by
    refine Std.ExtTreeMap.ext_getElem? fun address => ?_
    have hnever : ¬(start ≤ address ∧ address < stop) := by omega
    rw [Std.ExtTreeMap.getElem?_filterMap']
    simp [hnever]
  unfold eraseRange
  rw [hcells]

end Memory

namespace Flash

variable {flash : Flash}

/-! ## Bytes of a transaction -/

/-- `Flash.driven` with every access checked. -/
def driven? (flash : Flash) : Option UInt8 :=
  let count := flash.received.size
  match flash.command? with
  | some .readId => do
    let index ← difference? count 1
    some (flash.identity.getD index 0xFF)
  | some .readStatus => some flash.status
  | some .read =>
    if 4 ≤ count then
      match flash.address? with
      | some address => do
        let index ← difference? (address + count) 4
        some ((flash.memory.byte? index).getD 0xFF)
      | none => some 0xFF
    else
      some 0xFF
  | _ => some 0xFF

/-- `Flash.receive` with every access checked. -/
def receive? (flash : Flash) (byte : UInt8) : Option Flash := do
  let received := flash.received.push byte
  let first ← received[0]?
  if Command.ofByte? first = some .readStatus && received.size > 1 then
    some { flash with received, busy := flash.busy - 1 }
  else
    some { flash with received }

/-- A chip that knows its command has received a byte. -/
theorem size_pos_of_command? {command : Command} (h : flash.command? = some command) :
    0 < flash.received.size := by
  obtain ⟨_, hfirst, -⟩ := Option.bind_eq_some_iff.mp h
  exact (Array.getElem?_eq_some_iff.mp hfirst).1

/-- A chip that knows its address has received four bytes. -/
theorem size_of_address? {address : Nat} (h : flash.address? = some address) :
    4 ≤ flash.received.size := by
  unfold address? at h
  split at h
  · rename_i hlow
    exact (Array.getElem?_eq_some_iff.mp hlow).1
  · cases h

/-- What the chip drives is found in every state. -/
theorem driven?_eq (flash : Flash) : flash.driven? = some flash.driven := by
  unfold driven? driven
  cases hcommand : flash.command? with
  | none => rfl
  | some command =>
    have hpos := size_pos_of_command? hcommand
    cases command with
    | readId =>
      dsimp only
      rw [Bytes.difference?_eq hpos]
      rfl
    | read =>
      cases haddress : flash.address? with
      | none =>
        dsimp only
        split <;> rfl
      | some address =>
        -- The address has come in, so four bytes have.
        have hcount := size_of_address? haddress
        have hindex : address + flash.received.size - 4 = address + (flash.received.size - 4) := by
          omega
        dsimp only
        rw [if_pos hcount, Bytes.difference?_eq (Nat.le_trans hcount (Nat.le_add_left ..)), hindex]
        rfl
    | _ => rfl

/-- Every byte is taken. -/
theorem receive?_eq (flash : Flash) (byte : UInt8) :
    flash.receive? byte = some (flash.receive byte) := by
  have hsome : ∃ first, (flash.received.push byte)[0]? = some first := by
    refine ⟨_, Array.getElem?_eq_getElem ?_⟩
    rw [Array.size_push]
    exact Nat.succ_pos _
  obtain ⟨first, hfirst⟩ := hsome
  have hcommand : Flash.command? { flash with received := flash.received.push byte } =
      Command.ofByte? first := by
    rw [command?, hfirst]
    rfl
  unfold receive? receive
  dsimp only
  rw [hfirst, hcommand]
  dsimp only [Option.bind_eq_bind, Option.bind_some]
  split <;> rfl

/-- A byte that is received is no write. -/
theorem receive_frame (flash : Flash) (byte : UInt8) :
    ∃ received busy, flash.receive byte = { flash with received, busy } := by
  unfold receive
  dsimp only
  split <;> exact ⟨_, _, rfl⟩

/-! ## Effects of a transaction -/

/-- `Flash.pageProgram` with every access checked. -/
def pageProgram? (flash : Flash) : Option Flash :=
  match flash.address? with
  | none => some flash
  | some address =>
    if !flash.isWritable || flash.received.size ≤ 4 then some flash
    else do
      let data ← rest? 4 flash.received.toList
      some { flash with
        memory := programPage flash.memory (address / 256) (address % 256) data }.beginWrite

/-- `Flash.eraseBlock` with every access checked: what the block has of the array is erased. -/
def eraseBlock? (flash : Flash) (size : Nat) : Option Flash :=
  match flash.address? with
  | none => some flash
  | some address =>
    if !flash.isWritable then some flash
    else do
      let start := address / size * size
      let stop := min (start + size) flash.memory.size
      let memory ← if start < stop then flash.memory.eraseRange? start stop else some flash.memory
      some { flash with memory }.beginWrite

/-- `Flash.execute` with every access checked. -/
def execute? (flash : Flash) : Command → Option Flash
  | .pageProgram => flash.pageProgram?
  | .eraseSector => flash.eraseBlock? 4096
  | .eraseBlock => flash.eraseBlock? 65536
  | command => some (flash.execute command)

/-- `Flash.release` with every access checked. -/
def release? (flash : Flash) : Option Flash :=
  match flash.command? with
  | none => some { flash with received := #[] }
  | some command => do
    let flash ← flash.execute? command
    some { flash with received := #[] }

/-- No access of a page program is out of bounds: its data begins after the four bytes that were
checked for. -/
theorem pageProgram?_eq (flash : Flash) : flash.pageProgram? = some flash.pageProgram := by
  unfold pageProgram? pageProgram
  cases haddress : flash.address? with
  | none => rfl
  | some address =>
    have hlength : 4 ≤ flash.received.toList.length := size_of_address? haddress
    have hempty : (flash.received.toList.drop 4).isEmpty = decide (flash.received.size ≤ 4) := by
      rw [Bool.eq_iff_iff, List.isEmpty_iff, decide_eq_true_iff, List.drop_eq_nil_iff,
        Array.length_toList]
    dsimp only
    rw [Bytes.rest?_eq hlength, hempty]
    split <;> rfl

/-- No access of a block erase is out of bounds if no cell of the array is. -/
theorem eraseBlock?_eq (h : flash.memory.Bounded) (size : Nat) :
    flash.eraseBlock? size = some (flash.eraseBlock size) := by
  unfold eraseBlock? eraseBlock
  cases flash.address? with
  | none => rfl
  | some address =>
    dsimp only
    split
    · rfl
    · split
      · rename_i hlt
        have hrange : flash.memory.eraseRange? (address / size * size)
            (min (address / size * size + size) flash.memory.size) = some
              (flash.memory.eraseRange (address / size * size) (address / size * size + size)) := by
          rw [Memory.eraseRange?, if_pos ⟨Nat.le_of_lt hlt, Nat.min_le_right ..⟩, h.eraseRange_min]
        rw [hrange]
        rfl
      · rename_i hlt
        -- The whole block lies behind the array.
        rw [← h.eraseRange_min, Memory.eraseRange_of_le (Nat.le_of_not_lt hlt)]
        rfl

/-- No access of a command is out of bounds. -/
theorem execute?_eq (h : flash.memory.Bounded) (command : Command) :
    flash.execute? command = some (flash.execute command) := by
  cases command with
  | pageProgram => exact pageProgram?_eq flash
  | eraseSector => exact eraseBlock?_eq h _
  | eraseBlock => exact eraseBlock?_eq h _
  | _ => rfl

/-- The command of a transaction takes effect within the array. -/
theorem release?_eq (h : flash.memory.Bounded) : flash.release? = some flash.release := by
  unfold release? release
  cases flash.command? with
  | none => rfl
  | some command =>
    dsimp only
    rw [execute?_eq h]
    rfl

/-! ## Transactions -/

/-- `Flash.exchange` with every access checked. -/
def exchange? (flash : Flash) : (bytes : Bytes) → (driven : Bytes) → Option (Bytes × Flash)
  | [], driven => some (driven.reverse, flash)
  | byte :: bytes, driven => do
    let out ← flash.driven?
    (← flash.receive? byte).exchange? bytes (out :: driven)

/-- `Flash.transact` with every access checked. -/
def transact? (flash : Flash) (bytes : Bytes) : Option (Bytes × Flash) := do
  let (driven, flash) ← flash.select.exchange? bytes []
  some (driven, ← flash.release?)

/-- No access is out of bounds while bytes are exchanged. -/
theorem exchange?_eq (flash : Flash) (bytes driven : Bytes) :
    flash.exchange? bytes driven = some (flash.exchange bytes driven) := by
  induction bytes generalizing flash driven with
  | nil => rfl
  | cons byte bytes ih =>
    rw [exchange?, driven?_eq, receive?_eq]
    exact ih _ _

/-- Bytes that are received are no write. -/
theorem receiveAll_frame (flash : Flash) (bytes : Bytes) :
    ∃ received busy, flash.receiveAll bytes = { flash with received, busy } := by
  induction bytes generalizing flash with
  | nil => exact ⟨_, _, rfl⟩
  | cons byte bytes ih =>
    obtain ⟨_, _, hreceived⟩ := receive_frame flash byte
    obtain ⟨received, busy, hrest⟩ := ih (flash.receive byte)
    refine ⟨received, busy, ?_⟩
    rw [hreceived] at hrest
    rw [receiveAll, List.foldl_cons, hreceived]
    exact hrest

/-- No access is out of bounds in a whole transaction, so that the checks make no difference. -/
theorem transact?_eq (h : flash.memory.Bounded) (bytes : Bytes) :
    flash.transact? bytes = some (flash.transact bytes) := by
  obtain ⟨_, _, hreceived⟩ := receiveAll_frame flash.select bytes
  have hreleased : (flash.select.receiveAll bytes).release? =
      some (flash.select.receiveAll bytes).release := by
    refine release?_eq ?_
    rw [hreceived]
    exact h
  rw [transact?, exchange?_eq, exchange_eq, transact_eq]
  dsimp only [Option.bind_eq_bind, Option.bind_some]
  rw [hreleased]
  rfl

/-! ## The size of the array -/

/-- The array has the size it was configured with, and no cell lies outside. -/
structure Whole (flash : Flash) : Prop where
  /-- The array has the configured size. -/
  size_eq : flash.memory.size = flash.config.size
  /-- No cell lies outside of it. -/
  bounded : flash.memory.Bounded

/-- A chip is powered up with an array of its configured size. -/
theorem whole_powerUp (config : Config) : (powerUp config).Whole :=
  ⟨rfl, Memory.bounded_blank config.size⟩

/-- It is the array and the kind of chip that matter. -/
theorem Whole.of_eq {after : Flash} (h : flash.Whole) (hmemory : after.memory = flash.memory)
    (hconfig : after.config = flash.config) : after.Whole :=
  ⟨by rw [hmemory, hconfig, h.size_eq], by rw [hmemory]; exact h.bounded⟩

theorem Whole.receive (h : flash.Whole) (byte : UInt8) : (flash.receive byte).Whole := by
  obtain ⟨_, _, hreceived⟩ := receive_frame flash byte
  rw [hreceived]
  exact h.of_eq rfl rfl

/-- A page program changes no cell outside of the array, and not its size. -/
theorem programPage_bounded {memory : Memory} (h : memory.Bounded) (page offset : Nat)
    (data : Bytes) : (programPage memory page offset data).size = memory.size ∧
      (programPage memory page offset data).Bounded := by
  induction data generalizing memory offset with
  | nil => exact ⟨rfl, h⟩
  | cons byte data ih =>
    obtain ⟨hsize, hbounded⟩ := ih (h.programByte (page * 256 + offset % 256) byte) (offset + 1)
    exact ⟨hsize.trans (Memory.size_programByte ..), hbounded⟩

/-- No command changes the kind of chip. -/
theorem config_execute (flash : Flash) (command : Command) :
    (flash.execute command).config = flash.config := by
  cases command with
  | writeStatus | pageProgram | eraseSector | eraseBlock | eraseChip =>
    dsimp only [execute, writeStatus, pageProgram, eraseBlock, eraseChip, beginWrite]
    repeat' split
    all_goals rfl
  | _ => rfl

/-- A command keeps the array at its configured size. -/
theorem Whole.execute (h : flash.Whole) (command : Command) : (flash.execute command).Whole := by
  have herase : ∀ size, (flash.eraseBlock size).Whole := by
    intro size
    unfold Flash.eraseBlock
    split
    · exact h
    · split
      · exact h
      · exact ⟨h.size_eq, h.bounded.eraseRange _ _⟩
  cases command with
  | writeStatus =>
    dsimp only [Flash.execute, writeStatus, beginWrite]
    split
    · exact h
    · split
      · exact h.of_eq rfl rfl
      · exact h
  | pageProgram =>
    dsimp only [Flash.execute, pageProgram]
    split
    · exact h
    · split
      · exact h
      · obtain ⟨hsize, hbounded⟩ := programPage_bounded h.bounded _ _ _
        exact ⟨hsize.trans h.size_eq, hbounded⟩
  | eraseSector => exact herase 4096
  | eraseBlock => exact herase 65536
  | eraseChip =>
    dsimp only [Flash.execute, eraseChip]
    split
    · exact h
    · exact ⟨h.size_eq, Memory.bounded_blank _⟩
  | _ => exact h.of_eq rfl rfl

theorem config_release (flash : Flash) : flash.release.config = flash.config := by
  unfold release
  cases flash.command? with
  | none => rfl
  | some command => exact config_execute flash command

/-- The end of a transaction keeps the array at its configured size. -/
theorem Whole.release (h : flash.Whole) : flash.release.Whole := by
  unfold Flash.release
  cases flash.command? with
  | none => exact h.of_eq rfl rfl
  | some command => exact (h.execute command).of_eq rfl rfl

theorem config_transact (flash : Flash) (bytes : Bytes) :
    (flash.transact bytes).2.config = flash.config := by
  obtain ⟨_, _, hreceived⟩ := receiveAll_frame flash.select bytes
  rw [transact_eq, config_release, hreceived]
  rfl

/-- A whole chip is whole after a transaction. -/
theorem Whole.transact (h : flash.Whole) (bytes : Bytes) : (flash.transact bytes).2.Whole := by
  obtain ⟨_, _, hreceived⟩ := receiveAll_frame flash.select bytes
  rw [transact_eq, hreceived]
  exact Whole.release (h.of_eq rfl rfl)

end Flash

end FpgaProgrammer.Nor
