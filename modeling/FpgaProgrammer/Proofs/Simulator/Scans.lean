import FpgaProgrammer.Proofs.Simulator.Lasting

/-!
# What a scan touches

A scan goes through the register that the instruction selects, and touches what is behind it:
`Scanned` lists all that a scan can do (`scanned_scan`). The configuration gate and what waits
behind it are never touched, and the SPI flash and its pins only when they are selected
(`scan_frame`).
-/

namespace FpgaProgrammer.Simulator

/-- The device after a scan, by the register that the scan went through. -/
inductive Scanned (sim : Simulator) (given : Scan) : Simulator → Prop where
  /-- The register only answers, or it is too long for the scan. -/
  | unchanged (hpage : sim.ir ≠ Instruction.flashProgram.opcode ∨ given.bits ≠ 32) :
      Scanned sim given sim
  /-- The status was read. -/
  | readStatus (hir : sim.ir = Instruction.readStatus.opcode) : Scanned sim given sim.readStatus.2
  /-- SRAM was loaded. -/
  | loaded (hir : sim.ir = Instruction.transferWrite.opcode) (hopen : sim.editMode = true) :
      Scanned sim given { sim with
        sram := sim.sram ++ Bytes.fit (Bytes.blockCount 8 given.bits) (given.tx?.getD [])
        chunks := sim.chunks.push (given.bits, given.endState) }
  /-- A checksum was received. -/
  | checksum (hir : sim.ir = Instruction.checksumStart.opcode) (word : UInt32) :
      Scanned sim given { sim with checksum? := some word }
  /-- A word of a page was received. -/
  | pageWord (hir : sim.ir = Instruction.flashProgram.opcode) (hbits : given.bits = 32) :
      Scanned sim given
        (sim.receivePageWord (Bytes.wordLE (Bytes.fit 4 (given.tx?.getD []))))
  /-- The SPI flash had a transaction. -/
  | passed (hir : sim.ir = Instruction.spiPassthrough.opcode) (bytes : Bytes) :
      Scanned sim given { sim with flash := (sim.flash.transact bytes).2 }
  /-- The SPI pins were written. -/
  | driven (hir : sim.ir = Instruction.spiBoundaryScan.opcode) (hbits : given.bits = 8)
      (vector : UInt8) : Scanned sim given (sim.drivePins vector).2

/-- All that a scan can do. -/
theorem scanned_scan (sim : Simulator) (given : Scan) : Scanned sim given (sim.scan given).2 := by
  unfold scan
  dsimp only
  have hother : Instruction.ofOpcode? sim.ir ≠ some .flashProgram →
      sim.ir ≠ Instruction.flashProgram.opcode := by
    intro hne heq
    exact hne (heq ▸ Instruction.ofOpcode?_opcode .flashProgram)
  -- One case for each register that answers; all others leave the device as it is.
  cases hcode : Instruction.ofOpcode? sim.ir with
  | none => exact .unchanged (.inl (hother (by simp [hcode])))
  | some instruction =>
    have hir := (Instruction.opcode_of_ofOpcode? hcode).symm
    rw [hcode] at hother
    cases instruction with
    | readIdcode | readUsercode =>
      dsimp only
      split <;> exact .unchanged (.inl (hother (by decide)))
    | readStatus =>
      dsimp only
      split
      · exact .readStatus hir
      · exact .unchanged (.inl (hother (by decide)))
    | transferWrite =>
      dsimp only
      split
      · exact .loaded hir (by assumption)
      · exact .unchanged (.inl (hother (by decide)))
    | checksumStart =>
      dsimp only
      split
      · exact .checksum hir _
      · exact .unchanged (.inl (hother (by decide)))
    | flashProgram =>
      dsimp only
      split
      · rename_i hbits
        have hlength : Bytes.blockCount 8 given.bits = 4 := by rw [hbits]; rfl
        rw [hlength]
        exact .pageWord hir hbits
      · exact .unchanged (.inr (by assumption))
    | spiPassthrough => exact .passed hir _
    | spiBoundaryScan =>
      dsimp only
      split
      · exact .driven hir (by assumption) _
      · exact .unchanged (.inl (hother (by decide)))
    | _ => exact .unchanged (.inl (hother (by decide)))

/-! ## What is not touched -/

/-- A vector at the pins reaches the flash and the pins only. -/
theorem drivePins_frame (sim : Simulator) (vector : UInt8) :
    ∃ flash bus, (sim.drivePins vector).2 = { sim with flash, bus } := by
  have hmove : ∀ selected, ∃ flash bus, sim.moveSelect selected = { sim with flash, bus } := by
    intro selected
    unfold moveSelect
    split
    · exact ⟨_, _, rfl⟩
    · split <;> exact ⟨_, _, rfl⟩
  have hclock : ∀ (sim : Simulator) (bit : Bool),
      ∃ flash bus, sim.clockIn bit = { sim with flash, bus } := by
    intro sim bit
    dsimp only [clockIn]
    split <;> exact ⟨_, _, rfl⟩
  obtain ⟨flash, bus, hmoved⟩ := hmove (vector &&& sim.pins.select == 0)
  dsimp only [drivePins]
  rw [hmoved]
  split
  · obtain ⟨flash, bus, hclocked⟩ :=
      hclock { sim with flash, bus } (vector &&& sim.pins.dataIn != 0)
    rw [hclocked]
    exact ⟨_, _, rfl⟩
  · exact ⟨_, _, rfl⟩

/-- A word of a page reaches the pages only. -/
theorem receivePageWord_frame (sim : Simulator) (word : UInt32) :
    ∃ pages pageWrite?, sim.receivePageWord word = { sim with pages, pageWrite? } := by
  unfold receivePageWord
  split
  · exact ⟨_, _, rfl⟩
  · exact ⟨_, _, rfl⟩
  · dsimp only
    split <;> exact ⟨_, _, rfl⟩

/-- A read of the status only brings a running SRAM erase nearer to its end, and begins none. -/
theorem readStatus_frame (sim : Simulator) :
    ∃ eraseCountdown? memoryErased,
      sim.readStatus.2 = { sim with eraseCountdown?, memoryErased } ∧
        (sim.eraseCountdown? = none → eraseCountdown? = none) := by
  dsimp only [Simulator.readStatus]
  split
  · exact ⟨_, _, rfl, id⟩
  · exact ⟨_, _, rfl, fun _ => rfl⟩
  · rename_i hrunning
    exact ⟨_, _, rfl, fun hnone => by cases hrunning.symm.trans hnone⟩

/-- A scan touches the progress of an SRAM erase, what is being loaded or stored, and the SPI flash
with its pins. The pins are moved by eight bits in the boundary-scan register alone. -/
theorem scan_frame (sim : Simulator) (given : Scan) :
    ∃ eraseCountdown? memoryErased sram chunks checksum? pages pageWrite? flash bus,
      (sim.scan given).2 = { sim with
        eraseCountdown?, memoryErased, sram, chunks, checksum?, pages, pageWrite?, flash, bus } ∧
      (sim.eraseCountdown? = none → eraseCountdown? = none) ∧
      (sim.ir ≠ Instruction.spiBoundaryScan.opcode ∨ given.bits ≠ 8 → bus = sim.bus) := by
  have hscanned := scanned_scan sim given
  generalize (sim.scan given).2 = after at hscanned ⊢
  cases hscanned with
  | readStatus =>
    obtain ⟨_, _, hread, hidle⟩ := readStatus_frame sim
    exact ⟨_, _, _, _, _, _, _, _, _, hread, hidle, fun _ => rfl⟩
  | pageWord =>
    obtain ⟨_, _, hword⟩ := receivePageWord_frame sim _
    exact ⟨_, _, _, _, _, _, _, _, _, hword, id, fun _ => rfl⟩
  | driven hregister hlength vector =>
    obtain ⟨_, _, hpins⟩ := drivePins_frame sim vector
    refine ⟨_, _, _, _, _, _, _, _, _, hpins, id, ?_⟩
    -- This is the one register that moves the pins, and only by eight bits.
    rintro (hir | hbits)
    · exact absurd hregister hir
    · exact absurd hlength hbits
  | _ => exact ⟨_, _, _, _, _, _, _, _, _, rfl, id, fun _ => rfl⟩

end FpgaProgrammer.Simulator
