import FpgaProgrammer.Proofs.Bytes.Bits
import FpgaProgrammer.Proofs.Simulator.Calls
import FpgaProgrammer.Proofs.Spi.Pins
import FpgaProgrammer.Proofs.Spi.Transaction

/-!
# Transactions by toggling pins

While the device hands its flash pins to the boundary-scan register, what the host does to the pins
is what a master would do that drives the flash itself.

* `Steady sim after`: only traffic has come upon the device, and it still holds its instruction.
* `Exchanging sim flash bits now`: the device `now` has come from `sim` within a transaction; its
  flash is `flash`, and of the current byte it has received `bits`. Each bit, byte and transaction
  keeps this (`ends_clockBits`, `ends_clockByte`, `answers_clockBytes`).
* `Released sim flash after`: the transaction is over, and nothing of the device has changed but its
  flash, which is `flash`, and the pins.
* `answers_serve`: a request of a chip driver gets the answer of the flash itself;
  `answers_substitute`: so does a whole program.
-/

namespace FpgaProgrammer.Simulator

open SpiEncoding (BitBang.write BitBang.exchange BitBang.clockBits BitBang.clockByte)

variable (filter : LogFilter) {sim now after : Simulator} {pins : SpiPins}

/-! ## Dialogues -/

/-- `dialogue`, run on `sim`, ends with `value` and leaves the device `after`. -/
def Answers {α : Type} (dialogue : HostDialogue α) (sim : Simulator) (value : α)
    (after : Simulator) : Prop :=
  dialogue.run (Host.surroundings cable filter) sim = (value, after)

variable {filter} in
/-- A dialogue goes on after its first part. -/
theorem Answers.bind {α β : Type} {dialogue : HostDialogue α} {next : α → HostDialogue β}
    {value : α} {result : β} (h : Answers filter dialogue sim value now)
    (hnext : Answers filter (next value) now result after) :
    Answers filter (dialogue >>= next) sim result after := by
  rw [Answers, Dialogue.run_bind, h]
  exact hnext

variable {filter} in
/-- A dialogue whose value is passed on. -/
theorem Answers.map {α β : Type} {dialogue : HostDialogue α} {value : α}
    (h : Answers filter dialogue sim value after) (f : α → β) :
    Answers filter (f <$> dialogue) sim (f value) after :=
  h.bind rfl

variable {filter} in
/-- A program whose failure is caught ends with what it ended with. -/
theorem Ends.attempt {α : Type} {program : Host α} {result : Except Error α}
    (h : Ends filter program sim result after) :
    Ends filter (ExceptT.lift (ExceptT.run program)) sim (.ok result) after :=
  Answers.map h _

/-! ## What stays as it is -/

/-- Nothing has come upon the device but traffic, and it still holds its instruction. -/
structure Steady (sim after : Simulator) : Prop extends Traffic sim after where
  ir_eq : after.ir = sim.ir

theorem Steady.refl (sim : Simulator) : Steady sim sim :=
  ⟨.refl sim, rfl⟩

/-- What happens to flash and pins in two steps happens to them in one. -/
theorem Steady.follow {flash flash' : Nor.Flash} {bus bus' : SpiBus}
    (h : Steady { sim with flash, bus } now)
    (h' : Steady { now with flash := flash', bus := bus' } after) :
    Steady { sim with flash := flash', bus := after.bus } after ∧ after.bus = bus' := by
  have hbus : after.bus = bus' := read_lasting h'.lasting_eq Simulator.bus fun _ => rfl
  have hsame := h.toTraffic.map ({ · with flash := flash', bus := bus' }) (fun _ => rfl)
    fun _ => ⟨rfl, rfl⟩
  rw [hbus]
  exact ⟨⟨hsame.trans h'.toTraffic, h'.ir_eq.trans h.ir_eq⟩, rfl⟩

/-- The device within a transaction: only its flash and the pins are not as they were, and of the
current byte it has received some bits. -/
structure Exchanging (sim : Simulator) (flash : Nor.Flash) (bits : List Bool) (now : Simulator) :
    Prop where
  steady : Steady { sim with flash, bus := now.bus } now
  selected : now.bus.selected = true
  bits_eq : now.bus.bits = bits
  driven_eq : now.bus.driven = flash.driven

/-- The device after a transaction: only its flash and the pins are not as they were. -/
structure Released (sim : Simulator) (flash : Nor.Flash) (after : Simulator) : Prop where
  steady : Steady { sim with flash, bus := after.bus } after
  deselected : after.bus.selected = false

/-- The pins can be toggled: the device hands them to the boundary-scan register. -/
structure Attached (pins : SpiPins) (sim : Simulator) : Prop where
  spi_eq : sim.profile.spi = .bitBang pins
  ir_eq : sim.ir = Instruction.spiBoundaryScan.opcode

/-- The pins that a device is attached by are well-formed. -/
theorem Attached.wellFormed (h : Attached pins sim) : pins.WellFormed :=
  Profile.wellFormed_of_ofIdcode h.spi_eq

/-- While bits are exchanged, the flash is as the last full byte has left it. -/
theorem Exchanging.flash_eq {flash : Nor.Flash} {bits : List Bool}
    (h : Exchanging sim flash bits now) : now.flash = flash :=
  read_lasting h.steady.lasting_eq Simulator.flash fun _ => rfl

/-- A device keeps its pins through a transaction. -/
theorem Attached.steady (h : Attached pins sim) {flash : Nor.Flash} {bus : SpiBus}
    (hsteady : Steady { sim with flash, bus } now) : Attached pins now where
  spi_eq := (read_lasting hsteady.lasting_eq (·.profile.spi) fun _ => rfl).trans h.spi_eq
  ir_eq := hsteady.ir_eq.trans h.ir_eq

/-! ## Vectors -/

/-- A scan of eight bits writes the pins. -/
theorem scan_spiBoundaryScan (h : Attached pins sim) (vector : UInt8) (rxLength? : Option Nat) :
    sim.scan ⟨some [vector], rxLength?, 8, .runTestIdle⟩ =
      ([(sim.drivePins vector).1], (sim.drivePins vector).2) := by
  have hlength : Bytes.blockCount 8 8 = 1 := rfl
  unfold scan
  rw [ofOpcode?_ir h.ir_eq]
  dsimp only [Option.getD_some]
  rw [hlength, if_pos rfl]
  rfl

/-- A vector that is written drives the pins. -/
theorem ends_write (h : Attached pins sim) (vector : UInt8) :
    ∃ after, Ends filter (BitBang.write vector) sim (.ok ()) after ∧
      Steady (sim.drivePins vector).2 after := by
  have hscan := ends_shiftDr_of_scan filter (scan_spiBoundaryScan h vector none)
  exact ⟨_, hscan.bind (ends_toggleClock ..), (traffic_inState ..).trans
    (traffic_toggleClock (.inr TapState.noConfusion) _), rfl⟩

/-- A vector that is exchanged drives the pins, and brings back what they show. -/
theorem ends_exchange (h : Attached pins sim) (vector : UInt8) :
    ∃ after, Ends filter (BitBang.exchange vector) sim (.ok (sim.drivePins vector).1) after ∧
      Steady (sim.drivePins vector).2 after := by
  have hscan := ends_shiftDr_of_scan filter (scan_spiBoundaryScan h vector (some 1))
  exact ⟨_, hscan.bind ((ends_toggleClock ..).bind (ends_pure ..)), (traffic_inState ..).trans
    (traffic_toggleClock (.inr TapState.noConfusion) _), rfl⟩

/-! ## Bits and bytes -/

section Exchange

variable {flash : Nor.Flash} (hattached : Attached pins sim)

include hattached

/-- Lowering the clock exchanges nothing. -/
theorem ends_low {bits : List Bool} (h : Exchanging sim flash bits now) (bit : Bool) :
    ∃ after, Ends filter (BitBang.write (pins.low bit)) now (.ok ()) after ∧
      Exchanging sim flash bits after ∧ after.bus.clock = false := by
  have hnow := hattached.steady h.steady
  obtain ⟨after, hends, hsteady⟩ := ends_write filter hnow (pins.low bit)
  rw [drivePins_low (pins_of_spi hnow.spi_eq) hnow.wellFormed h.selected] at hsteady
  have hflash := h.flash_eq
  obtain ⟨hafter, hbus⟩ := h.steady.follow hsteady
  rw [hflash] at hafter
  refine ⟨after, hends, ⟨hafter, ?_, ?_, ?_⟩, ?_⟩ <;> rw [hbus]
  · exact h.selected
  · exact h.bits_eq
  · exact h.driven_eq

/-- Raising the clock exchanges one bit, and with the eighth bit the flash takes the byte. -/
theorem ends_high {bits : List Bool} (h : Exchanging sim flash bits now)
    (hclock : now.bus.clock = false) (bit : Bool) :
    ∃ captured after, Ends filter (BitBang.exchange (pins.high bit)) now (.ok captured) after ∧
      pins.sample captured = (Bytes.bitsOf flash.driven).getD bits.length false ∧
      if bits.length = 7 then Exchanging sim (flash.receive (Bytes.ofBits (bits ++ [bit]))) [] after
      else Exchanging sim flash (bits ++ [bit]) after := by
  have hnow := hattached.steady h.steady
  obtain ⟨after, hends, hsteady⟩ := ends_exchange filter hnow (pins.high bit)
  obtain ⟨hsample, hdrive⟩ :=
    drivePins_high (pins_of_spi hnow.spi_eq) hnow.wellFormed h.selected hclock bit
  have hflash := h.flash_eq
  refine ⟨_, after, hends, ?_, ?_⟩
  · rw [hsample, miso_clockIn, h.bits_eq, h.driven_eq]
  · rw [hdrive] at hsteady
    -- The eighth bit completes the byte: the flash takes it, and what it drives is next.
    by_cases hseven : bits.length = 7
    · rw [if_pos hseven]
      rw [clockIn_of_seven (by rw [h.bits_eq]; exact hseven)] at hsteady
      obtain ⟨hafter, hbus⟩ := h.steady.follow hsteady
      rw [h.bits_eq, hflash] at hafter
      refine ⟨hafter, ?_, ?_, ?_⟩ <;> rw [hbus]
      · exact h.selected
      · rw [h.bits_eq, hflash]
    · rw [if_neg hseven]
      rw [clockIn_of_ne_seven (by rw [h.bits_eq]; exact hseven)] at hsteady
      obtain ⟨hafter, hbus⟩ := h.steady.follow hsteady
      rw [hflash] at hafter
      refine ⟨hafter, ?_, ?_, ?_⟩ <;> rw [hbus]
      · exact h.selected
      · rw [h.bits_eq]
      · exact h.driven_eq

/-- One bit of a byte goes each way. -/
theorem ends_clockBit {bits : List Bool} (h : Exchanging sim flash bits now) (bit : Bool) :
    ∃ after, Ends filter (SpiEncoding.BitBang.clockBit pins bit) now
        (.ok ((Bytes.bitsOf flash.driven).getD bits.length false)) after ∧
      if bits.length = 7 then Exchanging sim (flash.receive (Bytes.ofBits (bits ++ [bit]))) [] after
      else Exchanging sim flash (bits ++ [bit]) after := by
  obtain ⟨lowered, hlow, hlowered, hclock⟩ := ends_low filter hattached h bit
  obtain ⟨captured, after, hhigh, hsample, hafter⟩ :=
    ends_high filter hattached hlowered hclock bit
  refine ⟨after, hlow.bind (hhigh.bind ((ends_flush ..).bind ?_)), hafter⟩
  rw [hsample]
  exact ends_pure ..

/-- The remaining bits of a byte go each way, and the flash takes the byte. -/
theorem ends_clockBits {done rest : List Bool} (h : Exchanging sim flash done now)
    (hlength : done.length + rest.length = 8) (hsome : rest ≠ []) :
    ∃ after, Ends filter (BitBang.clockBits pins rest) now
        (.ok ((Bytes.bitsOf flash.driven).drop done.length)) after ∧
      Exchanging sim (flash.receive (Bytes.ofBits (done ++ rest))) [] after := by
  -- On the bits that are left: those already exchanged say which bit is sampled next.
  induction rest generalizing now done with
  | nil => exact absurd rfl hsome
  | cons bit rest ih =>
    rw [List.length_cons] at hlength
    have hplace : done.length < (Bytes.bitsOf flash.driven).length := by
      rw [Bytes.length_bitsOf]
      omega
    have hdrop : (Bytes.bitsOf flash.driven).drop done.length =
        (Bytes.bitsOf flash.driven).getD done.length false ::
          (Bytes.bitsOf flash.driven).drop (done.length + 1) := by
      rw [List.drop_eq_getElem_cons hplace, List.getD_eq_getElem _ _ hplace]
    obtain ⟨clocked, hbit, hclocked⟩ := ends_clockBit filter hattached h bit
    rw [hdrop]
    by_cases hlast : rest = []
    · subst hlast
      rw [List.length_nil] at hlength
      rw [if_pos (by omega)] at hclocked
      rw [List.drop_of_length_le (by rw [Bytes.length_bitsOf]; omega)]
      exact ⟨clocked, hbit.bind ((ends_pure ..).bind (ends_pure ..)), hclocked⟩
    · have hmore := List.length_pos_iff.mpr hlast
      rw [if_neg (by omega)] at hclocked
      obtain ⟨after, hbits, hafter⟩ := ih hclocked
        (by rw [List.length_append, List.length_singleton]; omega) hlast
      rw [List.length_append, List.length_singleton] at hbits
      rw [List.append_assoc] at hafter
      exact ⟨after, hbit.bind (hbits.bind (ends_pure ..)), hafter⟩

/-- Eight bits go each way: the flash takes a byte, and the host the one it drove. -/
theorem ends_clockByte (h : Exchanging sim flash [] now) (byte : UInt8) :
    ∃ after, Ends filter (BitBang.clockByte pins byte) now (.ok flash.driven) after ∧
      Exchanging sim (flash.receive byte) [] after := by
  have hlength : ([] : List Bool).length + (Bytes.bitsOf byte).length = 8 :=
    (Nat.zero_add _).trans (Bytes.length_bitsOf byte)
  have hsome : Bytes.bitsOf byte ≠ [] := List.cons_ne_nil _ _
  obtain ⟨after, hbits, hafter⟩ := ends_clockBits filter hattached h hlength hsome
  rw [List.nil_append, Bytes.ofBits_bitsOf] at hafter
  refine ⟨after, hbits.bind ?_, hafter⟩
  rw [List.length_nil, List.drop_zero, Bytes.ofBits_bitsOf]
  exact ends_pure ..

/-- Bytes go each way one after the other. -/
theorem answers_clockBytes (h : Exchanging sim flash [] now) (bytes received : Bytes) :
    ∃ after, Answers filter (SpiEncoding.BitBang.clockBytes pins bytes received) now
        ⟨received.reverse ++ flash.answers bytes, .ok ()⟩ after ∧
      Exchanging sim (flash.receiveAll bytes) [] after := by
  induction bytes generalizing now flash received with
  | nil =>
    refine ⟨now, ?_, h⟩
    rw [Nor.Flash.answers, List.append_nil]
    rfl
  | cons byte bytes ih =>
    obtain ⟨clocked, hbyte, hclocked⟩ := ends_clockByte filter hattached h byte
    obtain ⟨after, hrest, hafter⟩ := ih hclocked (flash.driven :: received)
    rw [List.reverse_cons, List.append_assoc] at hrest
    exact ⟨after, Answers.bind hbyte hrest, hafter⟩

/-! ## Transactions -/

/-- Selecting the chip begins a transaction. -/
theorem ends_select (hdeselected : sim.bus.selected = false) :
    ∃ after, Ends filter (SpiEncoding.BitBang.select pins) sim (.ok ()) after ∧
      Exchanging sim sim.flash.select [] after := by
  obtain ⟨after, hends, hsteady⟩ := ends_write filter hattached pins.idle
  rw [drivePins_select (pins_of_spi hattached.spi_eq) hattached.wellFormed hdeselected] at hsteady
  obtain ⟨hafter, hbus⟩ := Steady.follow (.refl sim) hsteady
  refine ⟨after, hends.bind (ends_flush ..), hafter, ?_, ?_, ?_⟩ <;> rw [hbus]

/-- Releasing the chip ends the transaction. -/
theorem ends_release {bits : List Bool} (h : Exchanging sim flash bits now) :
    ∃ after, Ends filter (SpiEncoding.BitBang.release pins) now (.ok ()) after ∧
      Released sim flash.release after := by
  have hnow := hattached.steady h.steady
  obtain ⟨after, hends, hsteady⟩ := ends_write filter hnow pins.released
  rw [drivePins_released (pins_of_spi hnow.spi_eq) hnow.wellFormed h.selected, h.flash_eq]
    at hsteady
  obtain ⟨hafter, hbus⟩ := h.steady.follow hsteady
  refine ⟨after, hends.bind (ends_flush ..), hafter, ?_⟩
  rw [hbus]

/-- Toggling the pins through a transaction is a transaction of the flash. -/
theorem answers_transact (hdeselected : sim.bus.selected = false) (bytes : Bytes) :
    ∃ after, Answers filter (SpiEncoding.BitBang.transact pins bytes) sim
        ⟨(sim.flash.transact bytes).1, .ok ()⟩ after ∧
      Released sim (sim.flash.transact bytes).2 after := by
  obtain ⟨selected, hselect, hselected⟩ := ends_select filter hattached hdeselected
  obtain ⟨clocked, hbytes, hclocked⟩ := answers_clockBytes filter hattached hselected bytes []
  obtain ⟨after, hrelease, hreleased⟩ := ends_release filter hattached hclocked
  rw [List.reverse_nil, List.nil_append] at hbytes
  rw [Nor.Flash.transact_eq]
  exact ⟨after, Answers.bind hselect (hbytes.bind (Answers.bind hrelease rfl)), hreleased⟩

omit hattached in
/-- A message that is written only if it is wanted changes nothing. -/
theorem ends_logIf (wanted : Bool) (level : LogLevel) (text : String) {next : Host Unit}
    {result : Except Error Unit} (h : Ends filter next now result after) :
    Ends filter (if wanted = true then Host.log level text >>= fun _ => next else next) now result
      after := by
  cases wanted with
  | true => exact (ends_log ..).bind h
  | false => exact h

section Watch

variable {poll : SpiEncoding.Poll} {sample : Host UInt8} {value : UInt8} {left taken : Nat}
  {middle : Simulator}

omit hattached

variable {filter} in
/-- A poll ends with the sample that is awaited. -/
theorem ends_watch_found (hsample : Ends filter sample now (.ok value) after)
    (hfound : (value &&& poll.mask == poll.expected) = true) :
    Ends filter (poll.watch sample left taken) now (.ok ()) after := by
  unfold SpiEncoding.Poll.watch
  refine hsample.bind (ends_logIf filter _ _ _ ?_)
  rw [if_pos hfound]
  exact ends_pure ..

variable {filter} in
/-- A poll fails with the last sample that it may take. -/
theorem ends_watch_missed (hsample : Ends filter sample now (.ok value) after)
    (hmissed : ¬ (value &&& poll.mask == poll.expected) = true) :
    Ends filter (poll.watch sample 0 taken) now (.error .spiTimeout) after := by
  unfold SpiEncoding.Poll.watch
  refine hsample.bind (ends_logIf filter _ _ _ ?_)
  rw [if_neg hmissed]
  exact (ends_log ..).bind (ends_throw ..)

variable {filter} in
/-- A poll goes on after a sample that is not awaited. -/
theorem ends_watch_next (hsample : Ends filter sample now (.ok value) middle)
    (hmissed : ¬ (value &&& poll.mask == poll.expected) = true) {result : Except Error Unit}
    (hrest : Ends filter (poll.watch sample left (taken + 1)) middle result after) :
    Ends filter (poll.watch sample (left + 1) taken) now result after := by
  unfold SpiEncoding.Poll.watch
  refine hsample.bind (ends_logIf filter _ _ _ ?_)
  rw [if_neg hmissed]
  exact hrest

end Watch

/-- A poll takes samples until one has the awaited value, or until it may take no more. -/
theorem ends_watch (h : Exchanging sim flash [] now) (poll : SpiEncoding.Poll) (left taken : Nat) :
    ∃ after, Ends filter (poll.watch (BitBang.clockByte pins 0) left taken) now
        (poll.samples left flash).2 after ∧
      Exchanging sim (flash.receiveAll (List.replicate (poll.samples left flash).1 0)) []
        after := by
  -- On the samples that may still be taken; the case of the last one differs in the failure only.
  induction left generalizing now flash taken with
  | zero =>
    obtain ⟨clocked, hbyte, hclocked⟩ := ends_clockByte filter hattached h 0
    unfold SpiEncoding.Poll.samples
    by_cases hfound : (flash.driven &&& poll.mask == poll.expected) = true
    · rw [if_pos hfound]
      exact ⟨clocked, ends_watch_found hbyte hfound, hclocked⟩
    · rw [if_neg hfound]
      exact ⟨clocked, ends_watch_missed hbyte hfound, hclocked⟩
  | succ left ih =>
    obtain ⟨clocked, hbyte, hclocked⟩ := ends_clockByte filter hattached h 0
    unfold SpiEncoding.Poll.samples
    by_cases hfound : (flash.driven &&& poll.mask == poll.expected) = true
    · rw [if_pos hfound]
      exact ⟨clocked, ends_watch_found hbyte hfound, hclocked⟩
    · rw [if_neg hfound]
      obtain ⟨after, hrest, hafter⟩ := ih hclocked (taken + 1)
      exact ⟨after, ends_watch_next hbyte hfound hrest, hafter⟩

/-- A poll selects the chip, sends the command and takes samples. Then the chip is released whatever
the samples have come to, and that is what is reported. -/
theorem ends_await_of_watch (hdeselected : sim.bus.selected = false) {poll : SpiEncoding.Poll}
    {result : Except Error Unit} {holds : Nor.Flash → Prop}
    (hwatch : ∀ {commanded}, Exchanging sim (sim.flash.select.receive poll.command) [] commanded →
      ∃ polled flash, Ends filter (poll.watch (BitBang.clockByte pins 0) (poll.timeout.toNat - 1) 0)
        commanded result polled ∧ Exchanging sim flash [] polled ∧ holds flash) :
    ∃ after flash, Ends filter (SpiEncoding.await (.bitBang pins) poll) sim result after ∧
      Released sim flash.release after ∧ holds flash := by
  obtain ⟨selected, hselect, hselected⟩ := ends_select filter hattached hdeselected
  obtain ⟨commanded, hcommand, hcommanded⟩ :=
    ends_clockByte filter hattached hselected poll.command
  obtain ⟨polled, flash, hends, hpolled, hholds⟩ := hwatch hcommanded
  obtain ⟨after, hrelease, hreleased⟩ := ends_release filter hattached hpolled
  have hboth : Ends filter (BitBang.clockByte pins poll.command >>= fun _ =>
      poll.watch (BitBang.clockByte pins 0) (poll.timeout.toNat - 1) 0) selected _ polled :=
    hcommand.bind hends
  refine ⟨after, flash, hselect.bind (hboth.attempt.bind (hrelease.attempt.bind ?_)), hreleased,
    hholds⟩
  cases result with
  | ok value => exact ends_pure ..
  | error error => exact ends_throw ..

/-- A poll is one transaction of the flash: the command, and as many zero bytes as it took
samples. -/
theorem ends_await (hdeselected : sim.bus.selected = false) (poll : SpiEncoding.Poll) :
    ∃ after, Ends filter (SpiEncoding.await (.bitBang pins) poll) sim
        (sim.flash.serve (.await poll)).1 after ∧
      Released sim (sim.flash.serve (.await poll)).2 after := by
  rw [Nor.Flash.serve_await]
  obtain ⟨after, _, hends, hreleased, rfl⟩ := ends_await_of_watch filter hattached hdeselected
    fun hcommanded =>
      have ⟨polled, hwatch, hpolled⟩ :=
        ends_watch filter hattached hcommanded poll (poll.timeout.toNat - 1) 0
      ⟨polled, _, hwatch, hpolled, rfl⟩
  exact ⟨after, hends, hreleased⟩

/-- A transaction of a chip driver is one of the flash. -/
theorem answers_transfer (hdeselected : sim.bus.selected = false) (tx? : Option Bytes)
    (rxLength? : Option Nat) :
    ∃ after, Answers filter (SpiEncoding.transfer (.bitBang pins) tx? rxLength?) sim
        (sim.flash.serve (.transfer tx? rxLength?)).1 after ∧
      Released sim (sim.flash.serve (.transfer tx? rxLength?)).2 after := by
  obtain ⟨after, htransact, hreleased⟩ :=
    answers_transact filter hattached hdeselected (SpiEncoding.outgoing tx? rxLength?)
  exact ⟨after, htransact.bind rfl, hreleased⟩

/-- A command is a transaction of which the first byte that comes back is dropped. -/
theorem ends_command (hdeselected : sim.bus.selected = false) (code : UInt8) (tx? : Option Bytes)
    (rxLength? : Option Nat) :
    ∃ after, Ends filter (SpiEncoding.command (.bitBang pins) code tx? rxLength?) sim
        (sim.flash.serve (.command code tx? rxLength?)).1 after ∧
      Released sim (sim.flash.serve (.command code tx? rxLength?)).2 after := by
  let bytes := code :: SpiEncoding.outgoing tx? rxLength?
  obtain ⟨after, htransfer, hreleased⟩ := answers_transfer filter hattached hdeselected
    (some bytes) (rxLength?.map fun _ => bytes.length)
  refine ⟨after, Ends.bind (htransfer.map Receipt.toExcept) ?_, hreleased⟩
  cases rxLength? with
  | none => exact ends_pure ..
  | some length =>
    -- The whole answer was asked for; the first byte, driven during the command, is dropped.
    have hall : (sim.flash.transact bytes).1.take bytes.length = (sim.flash.transact bytes).1 :=
      List.take_of_length_le (Nat.le_of_eq (Nor.Flash.length_transact ..))
    show Ends filter
      (pure ((((sim.flash.transact bytes).1.take bytes.length).drop 1).take length)) after _ after
    rw [hall]
    exact ends_pure ..

/-- A request of a chip driver gets the answer of the flash, which is left as if it had been driven
directly. -/
theorem answers_serve (hdeselected : sim.bus.selected = false) (request : SpiRequest) :
    ∃ after, Answers filter (request.serve (.bitBang pins)) sim (sim.flash.serve request).1 after ∧
      Released sim (sim.flash.serve request).2 after := by
  cases request with
  | command code tx? rxLength? => exact ends_command filter hattached hdeselected code tx? rxLength?
  | transfer tx? rxLength? => exact answers_transfer filter hattached hdeselected tx? rxLength?
  | await poll => exact ends_await filter hattached hdeselected poll
  | remark text => exact ⟨sim, rfl, .refl sim, hdeselected⟩

/-- A program of a chip driver gets the answers of the flash, whatever it asks next upon an
answer. -/
theorem answers_substitute {α : Type} (hdeselected : sim.bus.selected = false)
    (dialogue : Dialogue SpiRequest SpiRequest.Answer α) :
    ∃ after, Answers filter (dialogue.substitute (SpiRequest.serve (.bitBang pins))) sim
        (dialogue.run Nor.Flash.serve sim.flash).1 after ∧
      Released sim (dialogue.run Nor.Flash.serve sim.flash).2 after := by
  -- On the requests: each leaves the chip released, and the device holding its pins for the next.
  induction dialogue generalizing sim with
  | done value => exact ⟨sim, rfl, .refl sim, hdeselected⟩
  | ask request next ih =>
    obtain ⟨middle, hserve, hserved⟩ := answers_serve filter hattached hdeselected request
    obtain ⟨after, hrest, hafter⟩ := ih (sim.flash.serve request).1
      (hattached.steady hserved.steady) hserved.deselected
    have hflash : middle.flash = (sim.flash.serve request).2 :=
      read_lasting hserved.steady.lasting_eq Simulator.flash fun _ => rfl
    rw [hflash] at hrest hafter
    obtain ⟨hfollowed, -⟩ := hserved.steady.follow hafter.steady
    exact ⟨after, hserve.bind hrest, hfollowed, hafter.deselected⟩

end Exchange

end FpgaProgrammer.Simulator
