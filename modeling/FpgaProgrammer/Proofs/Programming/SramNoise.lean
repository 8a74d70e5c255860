import FpgaProgrammer.Proofs.Bytes.Checksum
import FpgaProgrammer.Proofs.Programming.SramLoad

/-!
# A byte that changes on the way to the SRAM

The host sends the checksum of an image, whatever becomes of its bytes on the way. A device that
runs no design does not start one whose bytes have another checksum, and the load fails.

* `EndsNoisy.of_loadSram`: how a load ends, by what is in the SRAM afterwards.
* `checksum16_guards`: what the checksum is, and that one byte that changes is found out.
-/

namespace FpgaProgrammer.Simulator

variable {noise : Noise} {filter : LogFilter} {sim after : Simulator} {image : Image}

/-- A load of bytes with another checksum fails. -/
theorem EndsNoisy.of_loadSram {result : Except Error Unit}
    (h : EndsNoisy noise filter (Device.Sram.load image) sim result after)
    (hstuck : sim.config.stuckEditMode = false) (hdone : sim.doneFinal = false)
    (hunarmed : sim.eraseArmed = false) (hchecksum : image.checksum ≠ checksum16 after.sram) :
    result = .error (.writeFailed .sram) := by
  obtain ⟨bytes, after', hends, hwatched, -⟩ :=
    endsNoisy_loadSram filter noise sim hstuck image
  obtain ⟨rfl, rfl⟩ := Prod.mk.inj (h.symm.trans hends)
  have hsram : after.sram = bytes :=
    (hwatched.read sram fun _ => rfl).trans (sram_loadedAs sim image bytes)
  rw [hsram] at hchecksum
  have hstopped : (sim.loadedAs image bytes).doneFinal = false := by
    rw [loadedAs_of_ne hunarmed hchecksum]
    exact hdone
  rw [hstopped]
  rfl

/-- The checksum is the sum of the bytes in the even places, each counted 256 times, and of those in
the odd places. It is additive over a split after a whole number of words, and payloads of which
one byte differs have different checksums. So if the host sends the checksum of a payload, and what
arrives in the SRAM differs from this payload in one byte, the load fails. -/
theorem checksum16_guards :
    (∀ data : Bytes, (checksum16 data).toNat =
      (256 * byteSum (evenBytes data) + byteSum (oddBytes data)) % 0x10000) ∧
    (∀ first second : Bytes, first.length % 2 = 0 →
      checksum16 (first ++ second) = checksum16 first + checksum16 second) ∧
    (∀ sent arrived : Bytes, OneByteApart sent arrived → checksum16 sent ≠ checksum16 arrived) ∧
    ∀ (noise : Noise) (filter : LogFilter) (sim : Simulator) (image : Image) (payload : Bytes),
      sim.config.stuckEditMode = false → sim.doneFinal = false → sim.eraseArmed = false →
      image.checksum = checksum16 payload →
      let outcome := Host.run (noisyCable noise) filter (Device.Sram.load image) sim
      OneByteApart payload outcome.device.sram →
        outcome.result = .error (.writeFailed .sram) := by
  refine ⟨toNat_checksum16, fun first second heven => checksum16_append heven second,
    fun sent arrived => checksum16_ne, ?_⟩
  intro noise filter sim image payload hstuck hdone hunarmed hsent outcome hapart
  have hends : EndsNoisy noise filter (Device.Sram.load image) sim outcome.result outcome.device :=
    Prod.ext (Host.run_result ..).symm (Host.run_device ..).symm
  refine hends.of_loadSram hstuck hdone hunarmed ?_
  rw [hsent]
  exact checksum16_ne hapart

/-- The second of three bytes changes on the way. -/
theorem checksum16_guards_changed_byte :
    let noise : Noise := fun _ bytes => bytes.set 1 0xFF
    let image := (Bitstream.ofData [0x12, 0x34, 0x56]).toImage
    let outcome := Host.run (noisyCable noise) none (Device.Sram.load image) (powerUp {})
    outcome.device.sram = [0x12, 0xFF, 0x56] ∧ outcome.result = .error (.writeFailed .sram) := by
  intro noise image outcome
  have hsram : outcome.device.sram = [0x12, 0xFF, 0x56] := by decide +kernel
  have hapart : OneByteApart [0x12, 0x34, 0x56] outcome.device.sram := by
    rw [hsram]
    refine ⟨rfl, 1, by decide, fun i hi => ?_⟩
    match i with
    | 0 => exact absurd rfl hi
    | 1 => rfl
    | 2 => exact absurd rfl hi
    | i + 3 => exact absurd rfl hi
  obtain ⟨-, -, -, hguards⟩ := checksum16_guards
  exact ⟨hsram, hguards noise none (powerUp {}) image [0x12, 0x34, 0x56] rfl rfl rfl rfl hapart⟩

end FpgaProgrammer.Simulator
