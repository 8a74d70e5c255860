import FpgaProgrammer.Proofs.Device.Profile
import FpgaProgrammer.Simulator.Step

/-!
# The pins of the simulated flash

The vectors that the host writes select the chip, lower and raise its clock around a bit, and
release it. `SpiPins.WellFormed` says so bit by bit, and holds of the layout of every family
(`wellFormed_of_ofIdcode`). What each vector does to the simulated device is said by
`drivePins_select`, `drivePins_low`, `drivePins_high` and `drivePins_released`.
-/

namespace FpgaProgrammer

/-- The pins have bits of their own, so that the vectors of the host mean what they are named
after. -/
structure SpiPins.WellFormed (pins : SpiPins) : Prop where
  clock_low : ∀ bit, (pins.low bit &&& pins.clock != 0) = false
  select_low : ∀ bit, (pins.low bit &&& pins.select == 0) = true
  clock_high : ∀ bit, (pins.high bit &&& pins.clock != 0) = true
  select_high : ∀ bit, (pins.high bit &&& pins.select == 0) = true
  dataIn_high : ∀ bit, (pins.high bit &&& pins.dataIn != 0) = bit
  clock_released : (pins.released &&& pins.clock != 0) = false
  select_released : (pins.released &&& pins.select == 0) = false
  sample_high : ∀ bit miso, pins.sample
    (if miso then pins.high bit &&& ~~~pins.dataOut ||| pins.dataOut
      else pins.high bit &&& ~~~pins.dataOut) = miso

/-- The layout that most families have is well-formed. -/
theorem SpiPins.wellFormed_standard : SpiPins.standard.WellFormed := by
  constructor <;> decide

/-- So is the layout of the one that has its own. -/
theorem SpiPins.wellFormed_gw1nsr4c : SpiPins.gw1nsr4c.WellFormed := by
  constructor <;> decide

/-- Every family has one of the two layouts. -/
theorem Profile.wellFormed_of_ofIdcode {idcode : UInt32} {pins : SpiPins}
    (h : (Profile.ofIdcode idcode).spi = .bitBang pins) : pins.WellFormed := by
  have hlayouts : ∀ profile ∈ ({} : Profile) :: table.map Prod.snd,
      profile.spi = .bitBang .standard ∨ profile.spi = .bitBang .gw1nsr4c ∨
        profile.spi = .shiftRegister := by
    decide
  rcases hlayouts _ (ofIdcode_mem idcode) with hstandard | hgw1nsr4c | hshift
  · cases h.symm.trans hstandard
    exact SpiPins.wellFormed_standard
  · cases h.symm.trans hgw1nsr4c
    exact SpiPins.wellFormed_gw1nsr4c
  · cases h.symm.trans hshift

namespace Simulator

variable {sim : Simulator} {pins : SpiPins}

/-- The host toggles the pins that the flash of the device is connected to. -/
theorem pins_of_spi (h : sim.profile.spi = .bitBang pins) : sim.pins = pins := by
  unfold Simulator.pins
  rw [h]

/-- A rising clock shows the next bit that the flash drives. -/
theorem miso_clockIn (sim : Simulator) (bit : Bool) :
    (sim.clockIn bit).bus.miso =
      (Bytes.bitsOf sim.bus.driven).getD sim.bus.bits.length false := by
  unfold clockIn
  dsimp only
  split <;> rfl

/-- The eighth bit completes a byte, which the flash takes. -/
theorem clockIn_of_seven (h : sim.bus.bits.length = 7) (bit : Bool) :
    let flash := sim.flash.receive (Bytes.ofBits (sim.bus.bits ++ [bit]))
    sim.clockIn bit =
      { sim with
        flash
        bus := { sim.bus with
          miso := (Bytes.bitsOf sim.bus.driven).getD sim.bus.bits.length false
          bits := []
          driven := flash.driven } } :=
  if_pos (by rw [List.length_append, h]; rfl)

/-- The bits before it are kept. -/
theorem clockIn_of_ne_seven (h : sim.bus.bits.length ≠ 7) (bit : Bool) :
    sim.clockIn bit =
      { sim with
        bus := { sim.bus with
          miso := (Bytes.bitsOf sim.bus.driven).getD sim.bus.bits.length false
          bits := sim.bus.bits ++ [bit] } } :=
  if_neg (by rw [List.length_append]; exact mt Nat.succ.inj h)

section Vectors

variable (hpins : sim.pins = pins) (hwell : pins.WellFormed)

include hpins hwell

/-- Selecting the chip begins a transaction. -/
theorem drivePins_select (hdeselected : sim.bus.selected = false) :
    (sim.drivePins pins.idle).2 =
      { sim with
        flash := sim.flash.select
        bus := { sim.bus with
          selected := true, clock := false, bits := [], driven := sim.flash.select.driven } } := by
  have hclock : (pins.idle &&& pins.clock != 0) = false := hwell.clock_low false
  have hselect : (pins.idle &&& pins.select == 0) = true := hwell.select_low false
  simp [drivePins, moveSelect, hpins, hclock, hselect, hdeselected]

/-- While the clock is low, the bit on the data pin may change. -/
theorem drivePins_low (hselected : sim.bus.selected = true) (bit : Bool) :
    (sim.drivePins (pins.low bit)).2 = { sim with bus := { sim.bus with clock := false } } := by
  simp [drivePins, moveSelect, hpins, hwell.clock_low, hwell.select_low, hselected]

/-- When the clock rises, a bit goes each way. -/
theorem drivePins_high (hselected : sim.bus.selected = true) (hclock : sim.bus.clock = false)
    (bit : Bool) :
    pins.sample (sim.drivePins (pins.high bit)).1 = (sim.clockIn bit).bus.miso ∧
      (sim.drivePins (pins.high bit)).2 =
        { sim.clockIn bit with bus := { (sim.clockIn bit).bus with clock := true } } := by
  have hmove : sim.moveSelect true = sim := by simp [moveSelect, hselected]
  -- The clock was low, so this vector is a rising edge; the pin shows the bit it brought out.
  have hdrive : sim.drivePins (pins.high bit) =
      (if (sim.clockIn bit).bus.miso then pins.high bit &&& ~~~pins.dataOut ||| pins.dataOut
        else pins.high bit &&& ~~~pins.dataOut,
        { sim.clockIn bit with bus := { (sim.clockIn bit).bus with clock := true } }) := by
    unfold drivePins
    dsimp only
    rw [hpins, hwell.clock_high, hwell.select_high, hwell.dataIn_high, hmove, hselected, hclock]
    rfl
  rw [hdrive]
  exact ⟨hwell.sample_high .., rfl⟩

/-- Releasing the chip ends the transaction. -/
theorem drivePins_released (hselected : sim.bus.selected = true) :
    (sim.drivePins pins.released).2 =
      { sim with
        flash := sim.flash.release
        bus := { sim.bus with selected := false, clock := false } } := by
  simp [drivePins, moveSelect, hpins, hwell.clock_released, hwell.select_released, hselected]

end Vectors

end Simulator

end FpgaProgrammer
