import FpgaProgrammer.Device.EmbeddedFlash
import FpgaProgrammer.Device.Usercode
import FpgaProgrammer.Spi.ChipDriver

/-!
# Programming sessions

A session is what is known of one device and of what is to be done with it. `Session.open?` reads
the idcode and checks the wanted image against it; nothing is written. `Session.program`,
`Session.erase` and `Session.reset` then do the work. A session is a value that no operation
changes, so every operation can be repeated, whatever came of it before.
-/

namespace FpgaProgrammer

/-- Which memory a session works on. -/
inductive Target where
  /-- The configuration SRAM. -/
  | sram
  /-- The embedded or the external flash. -/
  | flash
  deriving Repr, DecidableEq

/-- What is wanted of a session. -/
structure Job where
  /-- The memory to work on. -/
  target : Target
  /-- The external flash is meant rather than the embedded one. -/
  externalFlash : Bool := false
  /-- An external flash is to be read back after writing. -/
  verify : Bool := false
  /-- The write protection of an external flash is to be lifted. -/
  unprotect : Bool := false
  /-- How often the status is read before a wait gives up. -/
  pollLimit : UInt32 := 100000000
  /-- The image to write. -/
  image? : Option Image := none
  /-- Firmware to write after the image. -/
  firmware? : Option Image := none
  /-- The driver for the external flash chip. -/
  chipDriver? : Option ChipDriver := none

/-- An open session. -/
structure Session where
  /-- The idcode of the device. -/
  idcode : UInt32
  /-- How the device behaves. -/
  profile : Profile
  /-- What is to be done with it. -/
  job : Job
  /-- Flash programming goes to the external flash. -/
  usesExternalFlash : Bool

namespace Session

/-- The clock frequency for programming the embedded flash, in hertz. -/
def flashClock : UInt32 := 2500000

/-- The clock frequency for driving an external flash, in hertz. -/
def externalFlashClock : UInt32 := 10000000

/-- The word address of the firmware in the embedded flash. -/
def firmwareAddress : UInt32 := 0x380

/-! ## Opening -/

/-- Checks an image against the idcode of the device. A raw image names no device, but it may only
go to an external flash. -/
def checkImage (idcode : UInt32) (externalFlash : Bool) (image : Image) : Except Error Unit :=
  match image.kind with
  | .bitstream =>
    match (image.header? "idcode").bind Text.readHexWord? with
    | none => throw .missingIdcode
    | some declared =>
      if declared &&& 0x0FFFFFFF == idcode then pure ()
      else throw (.idcodeMismatch declared idcode)
  | .raw => if externalFlash then pure () else throw .incompatibleFormat

/-- Checks a job against the device with the given idcode. -/
def checkJob (idcode : UInt32) (job : Job) : Except Error Unit := do
  if let some image := job.image? then
    checkImage idcode job.externalFlash image
  if job.firmware?.isSome && !(Profile.ofIdcode idcode).hasProcessor then
    throw .firmwareUnsupported

/-- The session for a job on the device with the given idcode. -/
def ofJob (idcode : UInt32) (job : Job) : Session :=
  let profile := Profile.ofIdcode idcode
  { idcode, profile, job,
    usesExternalFlash := job.externalFlash || profile.externalFlashOnly }

/-- Identifies the device and checks the job against it. Only the idcode is read. -/
def open? (job : Job) : Host Session := do
  let idcode ← Host.readIdcode
  let session := ofJob idcode job
  Host.log .info ("Found " ++ session.profile.family.name ++ " (idcode " ++
    Device.showWord idcode ++ ")")
  match checkJob idcode job with
  | .ok _ => pure session
  | .error error =>
    if let .idcodeMismatch _ _ := error then
      Host.log .error error.message
    throw error

/-! ## Working -/

variable (session : Session)

/-- The number of status reads after which a wait gives up. -/
def limit : Nat :=
  session.job.pollLimit.toNat

/-- Hands the JTAG chain to the embedded processor. -/
def connectProcessor : Host Unit :=
  Device.send .switchToProcessor

/-- Reloads the configuration from flash. -/
def reset : Host Unit :=
  Device.reload

/-- Compares the usercode with the checksum of the image, if the family reports it. -/
def verifyUsercode (image : Image) : Host Device.UsercodeCheck :=
  if session.profile.withoutChecksum then pure .skipped else Device.checkUsercode image

/-- Loads the image into SRAM. -/
def programSram (image : Image) : Host Device.UsercodeCheck := do
  Device.logStatus "before program sram"
  if session.profile.reloadBeforeLoad then
    Device.reload
    Host.setState .runTestIdle
    Host.toggleClock 1000000
  Device.Sram.erase session.limit
  Device.Sram.load image
  let check ← session.verifyUsercode image
  Device.logStatus "after program sram"
  pure check

/-- Writes the image, and the firmware after it, to the embedded flash. The device has to be valid
or freshly powered up. -/
def programEmbeddedFlash (image : Image) : Host Device.UsercodeCheck := do
  let _ ← Host.setClockFrequency flashClock
  Device.send .configDisable
  Device.sendOpcode 0x00
  Host.setState .testLogicReset
  let status ← Device.readStatus
  if !(status.has .gowinValid || status.has .powerOnReset) then
    Host.log .error "Either GOWIN_VLD or POR should be set, aborting"
    Device.logStatus "before program flash"
    throw (.notReady status.bits)
  Device.EmbeddedFlash.erase session.profile session.limit
  Device.EmbeddedFlash.write session.profile session.limit 0 image
  if let some firmware := session.job.firmware? then
    Device.EmbeddedFlash.write session.profile session.limit firmwareAddress firmware
  if session.job.verify then
    Host.log .warn "writing verification not supported"
  let check ← session.verifyUsercode image
  Device.logStatus "after program flash"
  pure check

/-- Prepares the device, lets the chip driver write the image to the external flash, and reloads
the device from it. -/
def programExternalFlash (driver : ChipDriver) (offset : UInt32) (image : Image) :
    Host Unit := do
  let _ ← Host.setClockFrequency externalFlashClock
  try
    Device.enableConfig session.limit
  catch error =>
    Host.log .error "failed to enable configuration"
    throw error
  Device.Sram.erase session.limit
  Device.send .transferDone
  Device.send .noop
  if session.profile.spi.isPassthrough then
    Device.disableConfig session.limit
    Device.send .noop
  else
    Device.send .spiBoundaryScan
  (driver offset image.storableBytes ⟨session.job.verify, session.job.unprotect⟩).onHost
    session.profile.spi
  if !session.profile.spi.isPassthrough then
    Device.disableConfig session.limit
  Device.reload

/-- Writes the image of the job. `offset` is where an external flash is written; it has no meaning
elsewhere. Without an image nothing is done. -/
def program (offset : UInt32) : Host Device.UsercodeCheck :=
  match session.job.image? with
  | none => pure .skipped
  | some image =>
    match session.job.target with
    | .sram => session.programSram image
    | .flash => do
      if session.profile.withoutFlashWrite then
        Host.log .error ("flash programming is not supported on " ++ session.profile.family.name)
        throw (.unsupported "flash programming on this family")
      else if session.usesExternalFlash then
        match session.job.chipDriver? with
        | none => throw .noChipDriver
        | some driver =>
          session.programExternalFlash driver offset image
          pure .skipped
      else
        session.programEmbeddedFlash image

/-- Erases the memory of the job. -/
def erase : Host Unit :=
  match session.job.target with
  | .sram => Device.Sram.erase session.limit
  | .flash => do
    if session.usesExternalFlash then
      throw (.unsupported "external flash erase")
    else if session.profile.withoutFlashWrite then
      throw (.unsupported "flash erase on this family")
    else
      let _ ← Host.setClockFrequency flashClock
      Device.EmbeddedFlash.erase session.profile session.limit

end Session

end FpgaProgrammer
