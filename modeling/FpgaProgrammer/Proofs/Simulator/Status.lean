import Mathlib.Data.Nat.Bitwise
import FpgaProgrammer.Simulator.Basic

/-!
# The status of the simulated device

Waiting for a flag compares the status register under the mask of that flag. For every value of
the register this is looking at the flag itself: `and_mask_eq_mask` and `and_mask_eq_nothing`.

The simulated device shows five of its conditions as flags, and `has_status` reads them back: a
flag is set exactly if its condition holds.
-/

namespace FpgaProgrammer

/-! ## One flag of a register value -/

/-- The mask of a flag is the power of two at its index. -/
theorem StatusFlag.toNat_mask (flag : StatusFlag) : flag.mask.toNat = 2 ^ flag.index := by
  cases flag <;> decide

namespace Status

/-- Under the mask of one flag a value is that mask if the flag is set, and zero otherwise. -/
theorem and_mask (status : Status) (flag : StatusFlag) :
    status.bits &&& flag.mask = if status.has flag then flag.mask else 0 := by
  -- A power of two leaves one bit of the register, in its place.
  have hand : (status.bits &&& flag.mask).toNat =
      (status.bits.toNat.testBit flag.index).toNat * 2 ^ flag.index := by
    rw [UInt32.toNat_and, flag.toNat_mask, Nat.and_two_pow]
  cases hbit : status.bits.toNat.testBit flag.index with
  | true =>
    have hmask : status.bits &&& flag.mask = flag.mask := by
      apply UInt32.toNat_inj.mp
      rw [hand, hbit, flag.toNat_mask, Bool.toNat_true, Nat.one_mul]
    have hne : flag.mask ≠ 0 := by cases flag <;> decide
    rw [if_pos (by rw [has, hmask]; exact bne_iff_ne.mpr hne), hmask]
  | false =>
    have hzero : status.bits &&& flag.mask = 0 := by
      apply UInt32.toNat_inj.mp
      rw [hand, hbit, Bool.toNat_false, Nat.zero_mul, UInt32.toNat_zero]
    rw [if_neg (by rw [has, hzero]; decide), hzero]

/-- The register agrees with a flag under its mask exactly if the flag is set. -/
theorem and_mask_eq_mask (status : Status) (flag : StatusFlag) :
    (status.bits &&& (Device.only flag).bits == (Device.only flag).bits) = status.has flag := by
  have honly : (Device.only flag).bits = flag.mask := by simp [Device.only, Status.ofFlags]
  have hne : (0 : UInt32) ≠ flag.mask := by cases flag <;> decide
  rw [honly, and_mask]
  cases status.has flag with
  | true => simp
  | false => simpa using hne

/-- The register vanishes under the mask of a flag exactly if the flag is clear. -/
theorem and_mask_eq_nothing (status : Status) (flag : StatusFlag) :
    (status.bits &&& (Device.only flag).bits == Device.nothing.bits) = !status.has flag := by
  have honly : (Device.only flag).bits = flag.mask := by simp [Device.only, Status.ofFlags]
  have hnothing : Device.nothing.bits = 0 := rfl
  rw [honly, hnothing, has, bne, Bool.not_not]

end Status

/-! ## The flags of the simulated device -/

namespace Simulator

/-- The condition of the device that a flag shows. The device never sets the other flags. -/
def shows (sim : Simulator) : StatusFlag → Bool
  | .systemEditMode => sim.editMode
  | .memoryErase => sim.memoryErased
  | .doneFinal => sim.doneFinal
  | .gowinValid => sim.gowinValid
  | .powerOnReset => sim.powerOnReset
  | _ => false

/-- A flag is set exactly if the condition that it shows holds. -/
@[simp]
theorem has_status (sim : Simulator) (flag : StatusFlag) :
    sim.status.has flag = sim.shows flag := by
  -- All that matters of the device is five bits, for which every flag can be checked.
  unfold status statusFlags shows
  generalize sim.editMode = e, sim.memoryErased = m, sim.doneFinal = d, sim.gowinValid = g,
    sim.powerOnReset = p
  cases flag <;> revert e m d g p <;> decide

end Simulator

end FpgaProgrammer
