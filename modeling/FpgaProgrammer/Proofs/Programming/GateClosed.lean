import FpgaProgrammer.Proofs.Instructions.RawImage
import FpgaProgrammer.Proofs.Programming.SramErase
import FpgaProgrammer.Proofs.Simulator.Coherent
import FpgaProgrammer.Proofs.Simulator.Gate
import FpgaProgrammer.Proofs.Simulator.Reachable
import FpgaProgrammer.Proofs.Simulator.Scans
import FpgaProgrammer.Proofs.Spi.BitBang

/-!
# The gate after an operation

An operation opens the configuration gate, begins erases behind it, and may hand the pins of an SPI
flash to a chip driver. It is to leave the gate closed with nothing waiting behind it and no chip
selected, also when it fails.

`Leaves filter config pre program post` says what a program makes of the `Gate`: a success leaves it
as `post` says, and a failure leaves it closed, unless a wait took too long. There is one lemma for
each operation of the host.

* `leaves_awaitStatus`: the one failure with the gate open.
* `leaves_serve`: a chip driver, whatever it asks and however it ends.
* `leaves_program`, `leaves_erase`: sessions.
* `closed_outcomes`: tasks that are done one after the other.
-/

namespace FpgaProgrammer.Simulator

variable {α β : Type} {filter : LogFilter} {config : SimulatorConfig} {sim after : Simulator}

/-! ## The gate -/

/-- The configuration gate, what waits behind it, and the chip at the pins. -/
structure Gate where
  /-- The gate is open. -/
  editMode : Bool
  /-- An attempt to erase the embedded flash is under way. -/
  eraseArmed : Bool
  /-- An SRAM load waits to start. -/
  sramValid : Bool
  /-- The chip at the pins is selected. -/
  selected : Bool
  deriving Repr, DecidableEq

/-- The gate is closed, nothing waits behind it, and no chip is selected. -/
def Gate.closed : Gate :=
  ⟨false, false, false, false⟩

/-- Where the gate is closed in full, no chip is selected either. -/
theorem deselected_of_closed {gate : Gate} (h : gate = .closed) : gate.selected = false := by
  rw [h, Gate.closed]

/-- The gate of a device. -/
def gate (sim : Simulator) : Gate :=
  ⟨sim.editMode, sim.eraseArmed, sim.sramValid, sim.bus.selected⟩

/-- Looking at the status does not move the gate. -/
theorem Watched.gate_eq (h : Watched sim after) : after.gate = sim.gate :=
  h.read gate fun _ => rfl

/-- Four instructions move the gate or what waits behind it. -/
theorem gate_execute (sim : Simulator) {instruction : Instruction}
    (h : instruction ∉
      [Instruction.configEnable, .configDisable, .checksumEnd, .flashErase]) :
    (sim.execute instruction).gate = sim.gate := by
  cases instruction with
  | configEnable | configDisable | checksumEnd | flashErase => exact absurd (by decide) h
  | eraseSram | flashProgram =>
    dsimp only [execute]
    split <;> rfl
  | _ => rfl

/-- So do other bits, whether they are an instruction or not. -/
theorem gate_instruct (sim : Simulator) {code : UInt8}
    (h : ∀ instruction, Instruction.ofOpcode? code = some instruction → instruction ∉
      [Instruction.configEnable, .configDisable, .checksumEnd, .flashErase]) :
    (sim.instruct code).gate = sim.gate := by
  unfold instruct
  cases hcode : Instruction.ofOpcode? code with
  | none => rfl
  | some instruction => exact gate_execute _ (h instruction hcode)

/-- No instruction selects a chip. -/
theorem selected_execute (sim : Simulator) (instruction : Instruction) :
    (sim.execute instruction).gate.selected = sim.gate.selected := by
  cases instruction with
  | configDisable =>
    obtain ⟨_, _, _, _, _, _, _, hframe⟩ := configDisable_frame sim
    rw [hframe]
    rfl
  | checksumEnd =>
    dsimp only [execute, latchChecksum]
    split <;> rfl
  | configEnable | flashErase =>
    dsimp only [execute]
    split <;> rfl
  | _ => rw [gate_execute sim (by decide)]

/-- Closing the gate leaves nothing waiting behind it. -/
theorem gate_configDisable (sim : Simulator) (h : sim.gate.selected = false) :
    (sim.execute .configDisable).gate = .closed := by
  have hsettled := settled_configDisable sim
  have hselected : (sim.execute .configDisable).bus.selected = false :=
    (selected_execute sim .configDisable).trans h
  rw [gate, editMode_configDisable, hsettled.unarmed, hsettled.unloaded, hselected, Gate.closed]

/-- A scan moves nothing, if it is not one of the pins. -/
theorem gate_scan_eq (sim : Simulator) (given : Scan)
    (h : sim.ir ≠ Instruction.spiBoundaryScan.opcode ∨ given.bits ≠ 8) :
    (sim.scan given).2.gate = sim.gate := by
  obtain ⟨_, _, _, _, _, _, _, _, bus, hframe, -, hbus⟩ := scan_frame sim given
  rw [hframe, hbus h]
  rfl

/-! ## Programs -/

/-- From a device whose gate is as `pre` says, the program succeeds with the gate as `post` says. If
it fails, a wait took too long, or the gate is closed. -/
def Leaves (filter : LogFilter) (config : SimulatorConfig) (pre : Gate → Prop) (program : Host α)
    (post : Gate → Prop) : Prop :=
  ∀ ⦃sim result after⦄, sim.config = config → pre sim.gate →
    Ends filter program sim result after →
    match result with
    | .ok _ => post after.gate
    | .error error => error = .timeout ∨ after.gate = .closed

section Rules

variable {pre middle post : Gate → Prop} {program : Host α}

/-- A program that always succeeds. -/
theorem leaves_of_ends
    (h : ∀ sim, pre sim.gate → ∃ value after, Ends filter program sim (.ok value) after ∧
      post after.gate) : Leaves filter config pre program post := by
  intro sim result after _ hpre hends
  obtain ⟨value, after', hends', hpost⟩ := h sim hpre
  obtain ⟨rfl, rfl⟩ := hends'.unique hends
  exact hpost

/-- A program that needs the chip deselected needs no more than a closed gate. -/
theorem Leaves.of_closed (h : Leaves filter config (·.selected = false) program post) :
    Leaves filter config (· = .closed) program post :=
  fun _ _ _ hconfig hclosed hends => h hconfig (deselected_of_closed hclosed) hends

/-- What the first part of a sequence leaves is what the second starts from. -/
theorem Leaves.bind {next : α → Host β} (h : Leaves filter config pre program middle)
    (hnext : ∀ value, Leaves filter config middle (next value) post) :
    Leaves filter config pre (program >>= next) post := by
  intro sim result after hconfig hpre hends
  rcases hfirst : Host.eval (Host.surroundings cable filter) program sim with ⟨failed | value, now⟩
  · obtain ⟨rfl, rfl⟩ := Ends.unique (Ends.bind_error hfirst) hends
    exact h hconfig hpre hfirst
  · exact hnext value ((Ends.config_eq hfirst).trans hconfig) (h hconfig hpre hfirst)
      (hends.rest hfirst)

theorem leaves_pure (value : α) : Leaves filter config post (pure value) post :=
  leaves_of_ends fun sim hpre => ⟨value, sim, ends_pure .., hpre⟩

/-- Whoever gives up has closed the gate. -/
theorem leaves_throw (error : Error) :
    Leaves filter config (· = .closed) (throw error : Host α) post := by
  intro sim result after _ hpre hends
  obtain ⟨rfl, rfl⟩ := (ends_throw ..).unique hends
  exact .inr hpre

/-- A failure that is reported and thrown again is the failure. -/
theorem Leaves.rethrow (h : Leaves filter config pre program post) (level : LogLevel)
    (text : String) : Leaves filter config pre (tryCatch program fun error => do
      Host.log level text
      throw error) post := by
  intro sim result after hconfig hpre hends
  rcases hbody : Host.eval (Host.surroundings cable filter) program sim with ⟨body, now⟩
  obtain ⟨rfl, rfl⟩ := (Ends.rethrow hbody level text).unique hends
  exact h hconfig hpre hbody

/-- Reports do not move the gate. -/
theorem Leaves.reporting {body : Host Unit} (h : Leaves filter config pre body post) (stage : Stage)
    (total : Nat) : Leaves filter config pre (Host.reporting stage total body) post :=
  fun _ _ _ hconfig hpre hends => h hconfig hpre hends.of_reporting

end Rules

/-! ## Calls and instructions -/

section Calls

variable {kept pre post : Gate → Prop}

theorem leaves_log (level : LogLevel) (text : String) :
    Leaves filter config kept (Host.log level text) kept :=
  leaves_of_ends fun sim hpre => ⟨(), sim, ends_log .., hpre⟩

theorem leaves_progress (report : Progress) :
    Leaves filter config kept (Host.progress report) kept :=
  leaves_of_ends fun sim hpre => ⟨(), sim, ends_progress .., hpre⟩

theorem leaves_setState (state : TapState) : Leaves filter config kept (Host.setState state) kept :=
  leaves_of_ends fun _ hpre => ⟨(), _, ends_setState .., hpre⟩

theorem leaves_toggleClock (cycles : UInt32) :
    Leaves filter config kept (Host.toggleClock cycles) kept :=
  leaves_of_ends fun _ hpre => ⟨(), _, ends_toggleClock .., hpre⟩

theorem leaves_flush : Leaves filter config kept Host.flush kept :=
  leaves_of_ends fun sim hpre => ⟨(), sim, ends_flush .., hpre⟩

theorem leaves_setClockFrequency (hertz : UInt32) :
    Leaves filter config kept (Host.setClockFrequency hertz) kept :=
  leaves_of_ends fun _ hpre => ⟨hertz, _, ends_setClockFrequency .., hpre⟩

theorem leaves_sleep (milliseconds : UInt32) :
    Leaves filter config kept (Host.sleep milliseconds) kept :=
  leaves_of_ends fun _ hpre => ⟨(), _, ends_sleep .., hpre⟩

theorem leaves_idle (microseconds : Nat) :
    Leaves filter config kept (Device.idle microseconds) kept :=
  leaves_of_ends fun _ hpre => ⟨(), _, ends_idle .., hpre⟩

/-- A scan of any other length than eight is none of the pins. -/
theorem leaves_shiftDr {tx? : Option Bytes} {rxLength? : Option Nat} {bits : Nat}
    {endState : TapState} (h : bits ≠ 8) :
    Leaves filter config kept (Host.shiftDr ⟨tx?, rxLength?, bits, endState⟩) kept := by
  refine leaves_of_ends fun sim hpre => ⟨_, _, ends_shiftDr .., ?_⟩
  show kept (sim.scan _).2.gate
  rw [gate_scan_eq sim _ (.inr h)]
  exact hpre

/-- An instruction that is sent has its effect on the gate. -/
theorem leaves_send {instruction : Instruction}
    (h : ∀ sim : Simulator, pre sim.gate → post (sim.execute instruction).gate) :
    Leaves filter config pre (Device.send instruction) post := by
  refine leaves_of_ends fun sim hpre => ⟨(), _, ends_send .., ?_⟩
  rw [(traffic_took sim instruction).watched.gate_eq]
  exact h sim hpre

/-- Most instructions leave the gate as it is. -/
theorem leaves_send_kept {instruction : Instruction}
    (h : instruction ∉
      [Instruction.configEnable, .configDisable, .checksumEnd, .flashErase]) :
    Leaves filter config kept (Device.send instruction) kept :=
  leaves_send fun sim hpre => by
    rw [gate_execute sim h]
    exact hpre

/-- No instruction selects a chip. -/
theorem leaves_send_deselected (instruction : Instruction) :
    Leaves filter config (·.selected = false) (Device.send instruction) (·.selected = false) :=
  leaves_send fun sim hpre => (selected_execute sim instruction).trans hpre

/-- The gate is closed by an instruction. -/
theorem leaves_send_configDisable :
    Leaves filter config (·.selected = false) (Device.send .configDisable) (· = .closed) :=
  leaves_send fun sim hpre => gate_configDisable sim hpre

/-- A code that is no instruction does not move the gate. -/
theorem leaves_sendOpcode_of_none {code : UInt8} (h : Instruction.ofOpcode? code = none) :
    Leaves filter config kept (Device.sendOpcode code) kept := by
  refine leaves_of_ends fun sim hpre => ⟨(), _, ends_sendOpcode .., ?_⟩
  rw [(traffic_took_of_none sim h).watched.gate_eq]
  exact hpre

/-- Reading the status does not move the gate: its scan goes through a register that has no
effect. -/
theorem leaves_readStatus : Leaves filter config kept Device.readStatus kept := by
  refine leaves_of_ends fun sim hpre => ?_
  obtain ⟨after, hends, htraffic⟩ := ends_readStatus filter sim
  refine ⟨_, after, hends, ?_⟩
  rw [((Watched.of_readStatus sim).trans htraffic.watched).gate_eq]
  exact hpre

theorem leaves_logStatus (occasion : String) :
    Leaves filter config kept (Device.logStatus occasion) kept := by
  refine leaves_of_ends fun sim hpre => ?_
  obtain ⟨after, hends, hwatched⟩ := ends_logStatus filter sim occasion
  refine ⟨_, after, hends, ?_⟩
  rw [hwatched.gate_eq]
  exact hpre

theorem leaves_readUsercode : Leaves filter config kept Device.readUsercode kept := by
  refine leaves_of_ends fun sim hpre => ?_
  obtain ⟨after, hends, htraffic⟩ := ends_readUsercode filter sim
  refine ⟨_, after, hends, ?_⟩
  rw [htraffic.watched.gate_eq]
  exact hpre

/-- A wait that takes too long is the one failure with the gate open. -/
theorem leaves_awaitStatus (mask expected : Status) (limit : Nat) :
    Leaves filter config kept (Device.awaitStatus mask expected limit) kept := by
  induction limit with
  | zero =>
    refine (leaves_log _ _).bind fun _ sim result after _ _ hends => ?_
    obtain ⟨rfl, rfl⟩ := (ends_throw ..).unique hends
    exact .inl rfl
  | succ limit ih =>
    refine leaves_readStatus.bind fun status => (leaves_log _ _).bind fun _ => ?_
    split
    · exact leaves_pure _
    · exact ih

/-- The gate is opened without a chip being selected. If the wait takes too long, it may stay
open. -/
theorem leaves_enableConfig (limit : Nat) :
    Leaves filter config (·.selected = false) (Device.enableConfig limit) (·.selected = false) :=
  (leaves_send_deselected _).bind fun _ => leaves_awaitStatus _ _ _

/-- Closing the gate closes it in full: an erase that was armed has ended, and a load that waited
has started. -/
theorem leaves_disableConfig (limit : Nat) :
    Leaves filter config (·.selected = false) (Device.disableConfig limit) (· = .closed) :=
  leaves_send_configDisable.bind fun _ => (leaves_send_kept (by decide)).bind fun _ =>
    leaves_awaitStatus _ _ _

theorem leaves_reload : Leaves filter config kept Device.reload kept :=
  (leaves_send_kept (by decide)).bind fun _ => leaves_send_kept (by decide)

/-- Nothing about the gate depends on whether the usercode matches. -/
theorem leaves_checkUsercode (image : Image) :
    Leaves filter config kept (Device.checkUsercode image) kept := by
  refine leaves_readUsercode.bind fun usercode => ?_
  split
  · exact (leaves_log _ _).bind fun _ => leaves_pure _
  · exact (leaves_log _ _).bind fun _ => (leaves_log _ _).bind fun _ => leaves_pure _

end Calls

/-! ## Memories -/

/-- The erase of the SRAM opens the gate and closes it again, so that the failure after it finds it
closed. -/
theorem leaves_eraseSram (limit : Nat) :
    Leaves filter config (·.selected = false) (Device.Sram.erase limit) (· = .closed) := by
  refine (leaves_log _ _).bind fun _ => (leaves_logStatus _).bind fun _ => ?_
  refine (leaves_enableConfig _).bind fun _ => ?_
  refine (leaves_send_deselected _).bind fun _ => (leaves_send_deselected _).bind fun _ => ?_
  refine (leaves_awaitStatus _ _ _).bind fun _ => ?_
  refine (leaves_send_deselected _).bind fun _ => (leaves_send_deselected _).bind fun _ => ?_
  -- The check follows when the gate is closed.
  refine (leaves_disableConfig _).bind fun _ => (leaves_logStatus _).bind fun _ => ?_
  refine leaves_readStatus.bind fun status => ?_
  split
  · exact (leaves_log _ _).bind fun _ => leaves_throw _
  · exact leaves_log _ _

/-- The scans that load the SRAM go through a register of their own, whatever their lengths. -/
theorem ends_stream_gate (sizes : List Nat) (sent : Nat) (data : Bytes) {sim : Simulator}
    (hir : sim.ir = Instruction.transferWrite.opcode) :
    ∃ after, Ends filter (Device.Sram.stream sizes sent data) sim (.ok ()) after ∧
      after.gate = sim.gate := by
  induction sizes generalizing sim sent data with
  | nil => exact ⟨sim, ends_pure .., rfl⟩
  | cons bits sizes ih =>
    let scan : Scan := ⟨some (data.take (Bytes.blockCount 8 bits)), none, bits,
      if sizes.isEmpty then TapState.runTestIdle else TapState.shiftDr⟩
    have hgate := gate_scan_eq sim scan (.inl (by rw [hir]; decide))
    obtain ⟨_, _, _, _, _, _, _, _, _, hframe, -⟩ := scan_frame sim scan
    have hir' : ((sim.scan scan).2.inState scan.endState).ir =
        Instruction.transferWrite.opcode := by
      rw [hframe]
      exact hir
    obtain ⟨after, hends, hafter⟩ := ih (sent + bits) (data.drop (bits / 8)) hir'
    exact ⟨after, (ends_shiftDr filter sim scan).bind ((ends_progress ..).bind hends),
      hafter.trans hgate⟩

/-- A load of the SRAM opens the gate and closes it behind the checksum, so that the failure after
it finds it closed. -/
theorem leaves_loadSram (image : Image) :
    Leaves filter config (·.selected = false) (Device.Sram.load image) (· = .closed) := by
  refine (leaves_log _ _).bind fun _ => (leaves_logStatus _).bind fun _ => ?_
  refine (leaves_send_deselected _).bind fun _ => (leaves_send_deselected _).bind fun _ => ?_
  intro sim result after hconfig hpre hends
  -- While it is streamed, the instruction before is still in its register.
  have hends := hends.rest (ends_send ..)
  obtain ⟨streamed, hstream, hstreamed⟩ : ∃ streamed, Ends filter (Device.Sram.stream
      (Device.Sram.chunkSizes image.loadableBits) 0 image.data) _ (.ok ()) streamed ∧
      streamed.gate = _ :=
    ends_stream_gate _ 0 image.data (ir_took sim Instruction.transferWrite.opcode)
  have hgate : streamed.gate.selected = false := by
    rw [hstreamed, (traffic_took sim .transferWrite).watched.gate_eq]
    exact (selected_execute sim _).trans hpre
  have hconfig : streamed.config = config :=
    hstream.config_eq.trans ((ends_send filter sim .transferWrite).config_eq.trans hconfig)
  refine (?_ : Leaves filter config (·.selected = false) _ (· = .closed)) hconfig hgate
    (hends.rest (hstream.reporting ..))
  refine (leaves_send_deselected _).bind fun _ => ?_
  refine (leaves_shiftDr (by decide)).bind fun _ => (leaves_send_deselected _).bind fun _ => ?_
  refine leaves_send_configDisable.bind fun _ => (leaves_send_kept (by decide)).bind fun _ => ?_
  refine (leaves_logStatus _).bind fun _ => leaves_readStatus.bind fun status => ?_
  split
  · exact leaves_log _ _
  · exact (leaves_log _ _).bind fun _ => leaves_throw _

/-- Erase pulses count towards an attempt, but do not end it. -/
theorem leaves_pulse {kept : Gate → Prop} (count : Nat) :
    Leaves filter config kept (Device.EmbeddedFlash.pulse count) kept := by
  induction count with
  | zero => exact leaves_pure _
  | succ count ih =>
    exact (leaves_setState _).bind fun _ => (leaves_toggleClock _).bind fun _ =>
      (leaves_setState _).bind fun _ => ih

/-- An attempt to erase the embedded flash ends with the gate closed, whether the device has ignored
it or not. -/
theorem leaves_attemptErase (profile : Profile) (limit : Nat) :
    Leaves filter config (·.selected = false) (Device.EmbeddedFlash.attemptErase profile limit)
      (· = .closed) := by
  refine (leaves_logStatus _).bind fun _ => (leaves_enableConfig _).bind fun _ => ?_
  refine (leaves_send_deselected _).bind fun _ => (leaves_setState _).bind fun _ => ?_
  refine (leaves_pulse _).bind fun _ => (leaves_idle _).bind fun _ => ?_
  refine (leaves_disableConfig _).bind fun _ => leaves_flush.bind fun _ => ?_
  exact (leaves_sleep _).bind fun _ => leaves_readStatus

/-- The gate is closed between the attempts. -/
theorem leaves_tryErase (profile : Profile) (limit left made : Nat) :
    Leaves filter config (· = .closed) (Device.EmbeddedFlash.tryErase profile limit left made)
      (· = .closed) := by
  -- On the attempts that are left: each opens the gate, and closes it again.
  induction left generalizing made with
  | zero => exact leaves_pure _
  | succ left ih =>
    refine (leaves_attemptErase _ _).of_closed.bind fun status => ?_
    refine (leaves_log _ _).bind fun _ => (leaves_progress _).bind fun _ => ?_
    split
    · exact ih _
    · exact leaves_pure _

/-- The erase of the embedded flash ends with the gate closed, also where it gives up. -/
theorem leaves_eraseFlash (profile : Profile) (limit : Nat) :
    Leaves filter config (· = .closed) (Device.EmbeddedFlash.erase profile limit)
      (· = .closed) := by
  unfold Device.EmbeddedFlash.erase
  refine leaves_readStatus.bind fun status => ?_
  extract_lets finish attempts
  have hattempts : ∀ u, Leaves filter config (· = .closed) (attempts u) (· = .closed) := by
    intro _
    refine (leaves_log _ _).bind fun _ => ?_
    refine ((leaves_tryErase _ _ _ _).reporting _ _).bind fun _ => ?_
    refine leaves_readStatus.bind fun status => ?_
    split
    · exact (leaves_log _ _).bind fun _ => (leaves_throw _).bind fun _ => leaves_log _ _
    · exact leaves_log _ _
  split
  · exact (leaves_eraseSram _).of_closed.bind hattempts
  · exact hattempts ()

theorem leaves_writeWords {kept : Gate → Prop} (delay : Nat) (words : List Bytes) :
    Leaves filter config kept (Device.EmbeddedFlash.writeWords delay words) kept := by
  induction words with
  | nil => exact leaves_pure _
  | cons word words ih =>
    exact (leaves_shiftDr (by decide)).bind fun _ => (leaves_idle _).bind fun _ => ih

/-- No chip is selected while a page is sent, and the gate is not closed behind it. -/
theorem leaves_writePage (delays : Device.EmbeddedFlash.Delays) (address : UInt32) (data : Bytes) :
    Leaves filter config (·.selected = false) (Device.EmbeddedFlash.writePage delays address data)
      (·.selected = false) := by
  unfold Device.EmbeddedFlash.writePage
  extract_lets page
  have hpage : ∀ u, Leaves filter config (·.selected = false) (page u) (·.selected = false) := by
    intro _
    refine (leaves_send_deselected _).bind fun _ => (leaves_send_deselected _).bind fun _ => ?_
    refine (leaves_send_deselected _).bind fun _ => (leaves_shiftDr (by decide)).bind fun _ => ?_
    exact (leaves_idle _).bind fun _ => (leaves_writeWords _ _).bind fun _ => leaves_idle _
  split
  · exact (leaves_idle _).bind hpage
  · exact hpage ()

theorem leaves_writePages (delays : Device.EmbeddedFlash.Delays) (base : UInt32)
    (pages : List Bytes) (index : Nat) :
    Leaves filter config (·.selected = false)
      (Device.EmbeddedFlash.writePages delays base pages index) (·.selected = false) := by
  induction pages generalizing index with
  | nil => exact leaves_pure _
  | cons data pages ih =>
    exact (leaves_writePage _ _ _).bind fun _ => (leaves_progress _).bind fun _ => ih _

/-- The gate is closed once after all pages. A wait for that takes too long or finds it closed. -/
theorem leaves_writeFlash (profile : Profile) (limit : Nat) (base : UInt32) (image : Image) :
    Leaves filter config (·.selected = false) (Device.EmbeddedFlash.write profile limit base image)
      (· = .closed) := by
  refine (leaves_log _ _).bind fun _ => (leaves_logStatus _).bind fun _ => ?_
  refine ((leaves_writePages _ _ _ _).reporting _ _).bind fun _ => ?_
  refine ((leaves_disableConfig _).rethrow _ _).bind fun _ => (leaves_logStatus _).bind fun _ => ?_
  refine leaves_reload.bind fun _ => (leaves_logStatus _).bind fun _ => ?_
  refine leaves_flush.bind fun _ => (leaves_sleep _).bind fun _ => ?_
  refine (leaves_logStatus _).bind fun _ => leaves_readStatus.bind fun status => ?_
  split
  · exact leaves_log _ _
  · exact (leaves_log _ _).bind fun _ => leaves_throw _

/-! ## External flashes -/

/-- A chip driver at the pins leaves the chip released, whatever it asks and however it ends. -/
theorem gate_onHost_bitBang {pins : SpiPins} (hattached : Attached pins sim)
    (hselected : sim.gate.selected = false) (program : Spi α) {result : Except Error α}
    (hends : Ends filter (program.onHost (.bitBang pins)) sim result after) :
    after.gate = sim.gate := by
  obtain ⟨now, hanswers, hreleased⟩ :=
    answers_substitute filter hattached hselected (ExceptT.run program)
  obtain ⟨-, rfl⟩ := Ends.unique hends hanswers
  have hlasting := hreleased.steady.lasting_eq
  have hedit : now.editMode = sim.editMode := read_lasting hlasting editMode fun _ => rfl
  have harmed : now.eraseArmed = sim.eraseArmed := read_lasting hlasting eraseArmed fun _ => rfl
  have hvalid : now.sramValid = sim.sramValid := read_lasting hlasting sramValid fun _ => rfl
  have hbus : now.bus.selected = sim.bus.selected := hreleased.deselected.trans hselected.symm
  rw [gate, hedit, harmed, hvalid, hbus, gate]

/-- A chip driver behind the data register does not touch the pins at all. -/
theorem gate_onHost_shiftRegister (hir : sim.ir ≠ Instruction.spiBoundaryScan.opcode)
    (program : Spi α) {result : Except Error α}
    (hends : Ends filter (program.onHost .shiftRegister) sim result after) :
    after.gate = sim.gate := by
  -- No other instruction is sent, so no scan goes to the pins; and this one does not move the gate.
  let Apart (now : Simulator) : Prop :=
    now.ir ≠ Instruction.spiBoundaryScan.opcode ∧ now.gate = sim.gate
  have hcall : ∀ call now, (∀ instruction, (Request.cable call).instruction? = some instruction →
      instruction ∈ [Instruction.spiPassthrough]) → Apart now → Apart (cable call now).2 := by
    intro call now hsent hnow
    cases call with
    | shiftIr data bits =>
      have hcode : ∀ instruction, Instruction.ofOpcode? (data.headD 0) = some instruction →
          instruction = .spiPassthrough := fun instruction hsome =>
        List.mem_singleton.mp (hsent instruction hsome)
      constructor
      · show (now.instruct (data.headD 0)).ir ≠ _
        rw [ir_instruct]
        intro hpins
        have hnone := hcode .spiBoundaryScan (by rw [hpins, Instruction.ofOpcode?_opcode])
        cases hnone
      · show (now.instruct (data.headD 0)).gate = _
        rw [gate_instruct now fun instruction hsome => by rw [hcode instruction hsome]; decide]
        exact hnow.2
    | shiftDr given =>
      obtain ⟨_, _, _, _, _, _, _, _, _, hframe, -⟩ := scan_frame now given
      refine ⟨?_, (gate_scan_eq now given (.inl hnow.1)).trans hnow.2⟩
      show (now.scan given).2.ir ≠ _
      rw [hframe]
      exact hnow.1
    | _ => exact hnow
  exact (hends.invariant_of_sends (Spi.sends_onHost _ program) hcall ⟨hir, rfl⟩).2

/-- While a chip driver works, the instruction that has connected it to the flash stays. -/
theorem leaves_serve {encoding : SpiEncoding}
    (hspi : (Profile.ofIdcode config.idcode).spi = encoding) {instruction : Instruction}
    (hkept : instruction ∉
      [Instruction.configEnable, .configDisable, .checksumEnd, .flashErase])
    (hconnects : instruction = .spiBoundaryScan ↔ encoding.isPassthrough = false)
    (program : Spi α) {next : α → Host β} {post : Gate → Prop}
    (hnext : ∀ value, Leaves filter config (· = .closed) (next value) post) :
    Leaves filter config (· = .closed)
      (Device.send instruction >>= fun _ => program.onHost encoding >>= next) post := by
  intro sim result after hconfig hpre hends
  have hsent := ends_send filter sim instruction
  have hprofile : (sim.took instruction.opcode).profile.spi = encoding := by
    rw [profile, hsent.config_eq, hconfig, hspi]
  have hclosed : (sim.took instruction.opcode).gate = .closed := by
    rw [(traffic_took sim instruction).watched.gate_eq, gate_execute sim hkept, hpre]
  -- Whatever the driver makes of the flash, the gate is as it was when it is done or gives up.
  have hserved : ∀ {result : Except Error α} {now : Simulator},
      Ends filter (program.onHost encoding) (sim.took instruction.opcode) result now →
        now.gate = .closed := by
    intro result now hends
    rw [← hclosed]
    cases encoding with
    | bitBang pins =>
      have hir : (sim.took instruction.opcode).ir = Instruction.spiBoundaryScan.opcode := by
        rw [ir_took, hconnects.mpr rfl]
      exact gate_onHost_bitBang ⟨hprofile, hir⟩ (deselected_of_closed hclosed) program hends
    | shiftRegister =>
      refine gate_onHost_shiftRegister (fun hir => ?_) program hends
      rw [ir_took] at hir
      have hpins : instruction = .spiBoundaryScan := Option.some.inj <| by
        rw [← Instruction.ofOpcode?_opcode instruction, hir, Instruction.ofOpcode?_opcode]
      cases hconnects.mp hpins
  have hends := hends.rest hsent
  rcases hfirst : Host.eval (Host.surroundings cable filter) (program.onHost encoding)
    (sim.took instruction.opcode) with ⟨error | value, now⟩
  · obtain ⟨rfl, rfl⟩ := Ends.unique (Ends.bind_error hfirst) hends
    exact .inr (hserved hfirst)
  · have hconfig : now.config = config :=
      (Ends.config_eq hfirst).trans (hsent.config_eq.trans hconfig)
    exact hnext value hconfig (hserved hfirst) (hends.rest hfirst)

/-! ## Sessions -/

section Sessions

variable (session : Session)

/-- A verification leaves the gate as it is, also in families that have none. -/
theorem leaves_verifyUsercode {kept : Gate → Prop} (image : Image) :
    Leaves filter config kept (session.verifyUsercode image) kept := by
  unfold Session.verifyUsercode
  split
  · exact leaves_pure _
  · exact leaves_checkUsercode image

/-- A session that loads the SRAM closes the gate after the erase and again after the load. -/
theorem leaves_programSram (image : Image) :
    Leaves filter config (· = .closed) (session.programSram image) (· = .closed) := by
  unfold Session.programSram
  refine (leaves_logStatus _).bind fun _ => ?_
  extract_lets load
  have hload : ∀ u, Leaves filter config (· = .closed) (load u) (· = .closed) := by
    intro _
    refine (leaves_eraseSram _).of_closed.bind fun _ => ?_
    refine (leaves_loadSram _).of_closed.bind fun _ => ?_
    exact (leaves_verifyUsercode session _).bind fun _ => (leaves_logStatus _).bind fun _ =>
      leaves_pure _
  split
  · exact leaves_reload.bind fun _ => (leaves_setState _).bind fun _ =>
      (leaves_toggleClock _).bind hload
  · exact hload ()

/-- A session that rewrites the embedded flash closes the gate at first, and after the erase and
each write. -/
theorem leaves_programEmbeddedFlash (image : Image) :
    Leaves filter config (· = .closed) (session.programEmbeddedFlash image) (· = .closed) := by
  unfold Session.programEmbeddedFlash
  refine (leaves_setClockFrequency _).bind fun _ => ?_
  refine leaves_send_configDisable.of_closed.bind fun _ => ?_
  refine (leaves_sendOpcode_of_none (by decide)).bind fun _ => (leaves_setState _).bind fun _ => ?_
  refine leaves_readStatus.bind fun status => ?_
  -- What follows a branch is the same whether it was taken or not, and leaves the gate closed.
  extract_lets finish warn write
  have hfinish : ∀ u, Leaves filter config (· = .closed) (finish u) (· = .closed) := fun _ =>
    (leaves_verifyUsercode session _).bind fun _ => (leaves_logStatus _).bind fun _ =>
      leaves_pure _
  have hwarn : ∀ u, Leaves filter config (· = .closed) (warn u) (· = .closed) := by
    intro _
    unfold warn
    split
    · exact (leaves_log _ _).bind hfinish
    · exact hfinish ()
  have hwrite : ∀ u, Leaves filter config (· = .closed) (write u) (· = .closed) := by
    intro _
    refine (leaves_eraseFlash _ _).bind fun _ => ?_
    refine (leaves_writeFlash _ _ _ _).of_closed.bind fun _ => ?_
    split
    · exact (leaves_writeFlash _ _ _ _).of_closed.bind hwarn
    · exact hwarn ()
  split
  · exact (leaves_log _ _).bind fun _ => (leaves_logStatus _).bind fun _ =>
      (leaves_throw _).bind hwrite
  · exact hwrite ()

/-- The gate is closed before a chip driver begins to work, and again when it fails. -/
theorem leaves_programExternalFlash (hprofile : session.profile = .ofIdcode config.idcode)
    (driver : ChipDriver) (offset : UInt32) (image : Image) :
    Leaves filter config (· = .closed) (session.programExternalFlash driver offset image)
      (· = .closed) := by
  unfold Session.programExternalFlash
  refine (leaves_setClockFrequency _).bind fun _ => ?_
  refine ((leaves_enableConfig _).of_closed.rethrow _ _).bind
    fun _ => ?_
  refine (leaves_eraseSram _).bind fun _ => ?_
  refine (leaves_send_kept (by decide)).bind fun _ => ?_
  refine (leaves_send_kept (by decide)).bind fun _ => ?_
  extract_lets finish serve
  -- Behind the data register the gate is closed before the driver works, at the pins afterwards.
  have hclose : Leaves filter config (· = .closed) (Device.disableConfig session.limit)
      (· = .closed) :=
    (leaves_disableConfig _).of_closed
  have hfinish : ∀ _u : Unit, Leaves filter config (· = .closed)
      (if (!session.profile.spi.isPassthrough) = true then
        Device.disableConfig session.limit >>= finish else finish ()) (· = .closed) := by
    intro _
    split
    · exact hclose.bind fun _ => leaves_reload
    · exact leaves_reload
  have hspi : (Profile.ofIdcode config.idcode).spi = session.profile.spi := by rw [hprofile]
  split
  · rename_i hpassthrough
    refine hclose.bind fun _ => ?_
    refine leaves_serve hspi (by decide) ?_ _ hfinish
    simp [hpassthrough]
  · rename_i hpins
    refine leaves_serve hspi (by decide) ?_ _ hfinish
    simp [hpins]

/-- Whatever the job asks for, and whether it is refused, fails or succeeds, a session leaves the
gate closed unless a wait took too long. -/
theorem leaves_program (hprofile : session.profile = .ofIdcode config.idcode) (offset : UInt32) :
    Leaves filter config (· = .closed) (session.program offset) (· = .closed) := by
  unfold Session.program
  split
  · exact leaves_pure _
  · split
    · exact leaves_programSram session _
    · split
      · exact (leaves_log _ _).bind fun _ => leaves_throw _
      · split
        · split
          · exact leaves_throw _
          · exact (leaves_programExternalFlash session hprofile _ _ _).bind fun _ => leaves_pure _
        · exact leaves_programEmbeddedFlash session _

/-- So does a session that erases a memory. -/
theorem leaves_erase : Leaves filter config (· = .closed) session.erase (· = .closed) := by
  unfold Session.erase
  split
  · exact (leaves_eraseSram _).of_closed
  · split
    · exact leaves_throw _
    · split
      · exact leaves_throw _
      · exact (leaves_setClockFrequency _).bind fun _ => leaves_eraseFlash _ _

end Sessions

/-! ## Sequences of operations -/

/-- Something that a device is asked to do in a session. -/
inductive Task where
  /-- Write the image of the job. -/
  | program (job : Job) (offset : UInt32)
  /-- Erase the memory of the job. -/
  | erase (job : Job)
  /-- Boot again. -/
  | reset

/-- The task as a program for a device with the given idcode. -/
def Task.onDevice (idcode : UInt32) : Task → Host Unit
  | program job offset => do
    let _ ← (Session.ofJob idcode job).program offset
  | erase job => (Session.ofJob idcode job).erase
  | reset => Session.reset

/-- What comes of tasks that are done one after the other, whatever comes of those before. -/
def outcomes (filter : LogFilter) : (sim : Simulator) → (tasks : List Task) →
    List (Host.Outcome Simulator Unit)
  | _, [] => []
  | sim, task :: tasks =>
    let outcome := Host.run cable filter (task.onDevice sim.config.idcode) sim
    outcome :: outcomes filter outcome.device tasks

/-- A task is done, or given up, with the gate closed. -/
theorem leaves_task (task : Task) :
    Leaves filter config (· = .closed) (task.onDevice config.idcode) (· = .closed) := by
  cases task with
  | program job offset => exact (leaves_program _ rfl offset).bind fun _ => leaves_pure _
  | erase job => exact leaves_erase _
  | reset => exact leaves_reload

/-- Every task that is not given up because a wait took too long leaves the gate closed with nothing
waiting behind it, and the chip at the pins released, whatever else came of it and of the tasks
before. A design runs then exactly if the device reports a valid one. -/
theorem closed_outcomes (hclosed : sim.gate = .closed) {tasks : List Task}
    (htimely : ∀ outcome ∈ outcomes filter sim tasks, outcome.result ≠ .error .timeout) :
    ∀ outcome ∈ outcomes filter sim tasks, outcome.device.gate = .closed ∧
      (sim.Reachable → outcome.device.doneFinal = outcome.device.gowinValid) := by
  -- On the tasks: each begins where the one before has left the device.
  induction tasks generalizing sim with
  | nil => exact fun outcome hmem => absurd hmem List.not_mem_nil
  | cons task tasks ih =>
    let first := Host.run cable filter (task.onDevice sim.config.idcode) sim
    have hends : Ends filter (task.onDevice sim.config.idcode) sim first.result first.device :=
      Ends.of_run rfl
    have hfirst : first.device.gate = .closed := by
      have hleaves := leaves_task task rfl hclosed hends
      have hresult := htimely first List.mem_cons_self
      cases hcase : first.result with
      | ok value =>
        rw [hcase] at hleaves
        exact hleaves
      | error error =>
        rw [hcase] at hleaves hresult
        exact hleaves.resolve_left fun htimeout => hresult (congrArg Except.error htimeout)
    intro outcome hmem
    rcases List.mem_cons.mp hmem with rfl | hmem
    · exact ⟨hfirst, fun hsim => (hsim.ends hends).agrees⟩
    · obtain ⟨hgate, hflags⟩ :=
        ih hfirst (fun later hlater => htimely later (List.mem_cons_of_mem _ hlater)) outcome hmem
      exact ⟨hgate, fun hsim => hflags (hsim.ends hends)⟩

/-- A design is loaded, a chip driver gives up after it has identified the chip, the erase of an
external flash is refused, an embedded flash is erased, and the device boots. -/
theorem closed_outcomes_tasks :
    let image := (Bitstream.ofData [1, 2, 3]).toImage
    let driver : ChipDriver := fun _ _ _ => do
      let _ ← Spi.command 0x9F none (some 3)
      throw .chipDriver
    let flash : Job := { target := .flash, externalFlash := true, image? := some image }
    let tasks := [.program { target := .sram, image? := some image } 0,
      .program { flash with chipDriver? := some driver } 0, .program flash 0, .erase flash,
      .erase { flash with externalFlash := false }, .reset]
    let outcomes := outcomes (some .debug) (powerUp {}) tasks
    outcomes.map (·.result) = [.ok (), .error .chipDriver, .error .noChipDriver,
        .error (.unsupported "external flash erase"), .ok (), .ok ()] ∧
      ∀ outcome ∈ outcomes, outcome.device.gate = .closed ∧
        outcome.device.doneFinal = outcome.device.gowinValid := by
  intro image driver flash tasks outcomes
  have hresults : outcomes.map (·.result) = [.ok (), .error .chipDriver, .error .noChipDriver,
      .error (.unsupported "external flash erase"), .ok (), .ok ()] := by
    decide +kernel
  have htimely : ∀ outcome ∈ outcomes, outcome.result ≠ .error .timeout := by
    intro outcome hmem htimeout
    have hresult := List.mem_map_of_mem (f := (·.result)) hmem
    rw [hresults, htimeout] at hresult
    simp at hresult
  refine ⟨hresults, fun outcome hmem => ?_⟩
  have hclosed : (powerUp {}).gate = .closed := rfl
  obtain ⟨hgate, hflags⟩ := closed_outcomes hclosed htimely outcome hmem
  exact ⟨hgate, hflags (.powerUp {})⟩

end FpgaProgrammer.Simulator
