import FpgaProgrammer.Device.Profile
import FpgaProgrammer.Device.Sram

/-!
# Embedded flash

Erasing the flash inside a device, and writing an image to its pages. An erase is a number of
pulses given while the device is in edit mode; it may have to be tried again until the old design
no longer comes up. A page is 256 bytes, addressed by its first 32-bit word, and the page at
address 0 starts with a signature that makes the device boot from it.
-/

namespace FpgaProgrammer.Device.EmbeddedFlash

/-- Bytes in a page. -/
def pageSize : Nat := 256

/-- What the page at address 0 starts with. -/
def autobootSignature : Bytes := [0x47, 0x57, 0x31, 0x4E]

/-- How often an erase is tried. -/
def eraseAttempts : Nat := 100

/-! ## Erasing -/

/-- Gives erase pulses: clocks in Shift-DR, which are no scan. -/
def pulse : (count : Nat) → Host Unit
  | 0 => pure ()
  | count + 1 => do
    Host.setState .shiftDr
    Host.toggleClock 32
    Host.setState .runTestIdle
    pulse count

/-- One attempt to erase the flash. Returns the status after it. -/
def attemptErase (profile : Profile) (limit : Nat) : Host Status := do
  logStatus "before erase flash"
  enableConfig limit
  send .flashErase
  Host.setState .runTestIdle
  pulse profile.erasePulses
  idle 150000
  disableConfig limit
  Host.flush
  Host.sleep 500
  readStatus

/-- Tries at most `left` more times, after `made` attempts, until no design comes up any more. -/
def tryErase (profile : Profile) (limit : Nat) : (left made : Nat) → Host Unit
  | 0, _ => pure ()
  | left + 1, made => do
    let status ← attemptErase profile limit
    Host.log .debug (s!"erase attempt {made + 1}: status " ++ showWord status.bits)
    Host.progress (.advance (made + 1))
    if status.has .doneFinal then
      tryErase profile limit left (made + 1)
    else
      pure ()

/-- Erases the flash, and the SRAM first if a design is running. -/
def erase (profile : Profile) (limit : Nat) : Host Unit := do
  if (← readStatus).has .gowinValid then
    Sram.erase limit
  Host.log .info "Erase FLASH"
  Host.reporting .eraseFlash eraseAttempts (tryErase profile limit eraseAttempts 0)
  if (← readStatus).has .doneFinal then
    Host.log .error "Erase FLASH: FAIL"
    throw (.eraseFailed .flash)
  Host.log .info "Erase FLASH: DONE"

/-! ## Writing -/

/-- Microseconds to wait while a page is written. -/
structure Delays where
  /-- After each word. -/
  word : Nat
  /-- After the page. -/
  page : Nat

/-- The delays of a family. -/
def delays (profile : Profile) : Delays :=
  if profile.slowFlash then ⟨32, 2400⟩ else ⟨16, 6⟩

/-- The content of the page at an address: the data, continued with erased bytes, and with the
signature over its first word at address 0. -/
def pageContent (address : UInt32) (data : Bytes) : Bytes :=
  let page := Bytes.fitWith 0xFF pageSize data
  if address == 0 then autobootSignature ++ page.drop autobootSignature.length else page

/-- The address of a page: the flash is addressed by 32-bit words. -/
def pageAddress (base : UInt32) (index : Nat) : UInt32 :=
  (pageSize * index / 4).toUInt32 + base

/-- Shifts the words of a page, each with its bytes reversed, and waits after each. -/
def writeWords (delay : Nat) : (words : List Bytes) → Host Unit
  | [] => pure ()
  | word :: words => do
    let _ ← Host.shiftDr ⟨some word.reverse, none, 32, .runTestIdle⟩
    idle delay
    writeWords delay words

/-- Writes one page. -/
def writePage (delays : Delays) (address : UInt32) (data : Bytes) : Host Unit := do
  if address != 0 then
    idle 16
  send .configEnable
  send .noop
  send .flashProgram
  let _ ← Host.shiftDr ⟨some (Bytes.ofWordLE address), none, 32, .runTestIdle⟩
  idle 16
  writeWords delays.word (Bytes.blocks 4 (pageContent address data))
  idle delays.page

/-- Writes pages from the one with the given index on. -/
def writePages (delays : Delays) (base : UInt32) : (pages : List Bytes) → (index : Nat) → Host Unit
  | [], _ => pure ()
  | data :: pages, index => do
    writePage delays (pageAddress base index) data
    Host.progress (.advance (pageSize * index + data.length))
    writePages delays base pages (index + 1)

/-- Writes an image to the pages from the word address `base` on, and reloads the device from
flash. Fails if the device runs no design afterwards. -/
def write (profile : Profile) (limit : Nat) (base : UInt32) (image : Image) : Host Unit := do
  Host.log .info "Write FLASH"
  logStatus "before write flash"
  let data := image.storableBytes
  Host.reporting .writeFlash data.length
    (writePages (delays profile) base (Bytes.blocks pageSize data) 0)
  try
    disableConfig limit
  catch error =>
    Host.log .error "Write FLASH: failed to disable configuration"
    throw error
  logStatus "after write flash"
  reload
  logStatus "after reload"
  Host.flush
  Host.sleep 500
  logStatus "after flush"
  if (← readStatus).has .doneFinal then
    Host.log .info "Write FLASH: DONE"
  else
    Host.log .error "Write FLASH: FAIL"
    throw (.writeFailed .flash)

end FpgaProgrammer.Device.EmbeddedFlash
