import FpgaProgrammer.Device.Register
import FpgaProgrammer.Image

/-!
# Configuration SRAM

Erasing the volatile configuration memory, and loading an image into it. An image is streamed in
scans of at most `chunkBits` bits which leave the data register open in between, and is followed
by its checksum.
-/

namespace FpgaProgrammer.Device.Sram

/-- The most bits that one scan loads. -/
def chunkBits : Nat := 524288

/-- The sizes of the scans that load `total` bits: full ones, and one for what remains. -/
def chunkSizes (total : Nat) : List Nat :=
  List.replicate (total / chunkBits) chunkBits ++
    (if total % chunkBits = 0 then [] else [total % chunkBits])

/-- Erases the SRAM. Fails if the device still runs a design afterwards. -/
def erase (limit : Nat) : Host Unit := do
  Host.log .info "Erase SRAM"
  logStatus "before erase sram"
  enableConfig limit
  send .eraseSram
  send .noop
  awaitStatus (only .memoryErase) (only .memoryErase) limit
  send .transferDone
  send .noop
  disableConfig limit
  logStatus "after erase sram"
  if (← readStatus).has .doneFinal then
    Host.log .error "Erase SRAM: FAIL"
    throw (.eraseFailed .sram)
  Host.log .info "Erase SRAM: DONE"

/-- Shifts the data in scans of the given sizes, after `sent` bits were shifted. The last scan
closes the data register. -/
def stream : (sizes : List Nat) → (sent : Nat) → (data : Bytes) → Host Unit
  | [], _, _ => pure ()
  | bits :: sizes, sent, data => do
    let endState := if sizes.isEmpty then TapState.runTestIdle else TapState.shiftDr
    let _ ← Host.shiftDr ⟨some (data.take (Bytes.blockCount 8 bits)), none, bits, endState⟩
    Host.progress (.advance (sent + bits))
    stream sizes (sent + bits) (data.drop (bits / 8))

/-- Loads an image and closes with its checksum. Fails if the device does not run the design
afterwards. -/
def load (image : Image) : Host Unit := do
  Host.log .info "Load SRAM"
  logStatus "before write sram"
  send .configEnable
  send .initAddress
  send .transferWrite
  let total := image.loadableBits
  Host.reporting .loadSram total (stream (chunkSizes total) 0 image.data)
  send .checksumStart
  let _ ← Host.shiftDr
    ⟨some (Bytes.ofWordLE image.checksum.toUInt32), none, 32, .runTestIdle⟩
  send .checksumEnd
  send .configDisable
  send .noop
  logStatus "after write sram"
  if (← readStatus).has .doneFinal then
    Host.log .info "Load SRAM: DONE"
  else
    Host.log .error "Load SRAM: FAIL"
    throw (.writeFailed .sram)

end FpgaProgrammer.Device.Sram
