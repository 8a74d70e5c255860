import FpgaProgrammer.Session

/-!
# Sessions worked on in place

`Session.program` is given a session as a value. Here a session is worked on in place: whatever is
needed to program a device is taken out of the session for as long as it is in use, and is put back
when the work with it has ended, in whatever way. There are three slots from which things are taken:
the image for a whole call, the firmware while it is written, and the chip driver while it works.

A chip driver may be another one after it was used, as it may keep things in mind from one use to
the next.
-/

namespace FpgaProgrammer

/-- A program that works on a session in place. If it fails, the session stays as it has been left
by then. -/
abbrev InPlace := ExceptT Error (StateT Session HostDialogue)

/-- A part of a session that may be there or not. -/
structure Slot (α : Type) where
  /-- What is in the slot. -/
  content? : Session → Option α
  /-- The session with other content in the slot. -/
  fill : Session → Option α → Session
  /-- What is in the slot already makes no difference. -/
  fill_content? (session : Session) : fill session (content? session) = session := by intros; rfl
  /-- Only the last content stays. -/
  fill_fill (session : Session) (first second : Option α) :
    fill (fill session first) second = fill session second := by intros; rfl

namespace Slot

/-- The image to write. -/
def image : Slot Image where
  content? session := session.job.image?
  fill session image? := { session with job.image? := image? }

/-- Firmware to write after the image. -/
def firmware : Slot Image where
  content? session := session.job.firmware?
  fill session firmware? := { session with job.firmware? := firmware? }

/-- The driver for the external flash chip. -/
def chipDriver : Slot ChipDriver where
  content? session := session.job.chipDriver?
  fill session chipDriver? := { session with job.chipDriver? := chipDriver? }

end Slot

namespace InPlace

variable {α β : Type}

/-- A host program has nothing to do with the session. -/
instance : MonadLift Host InPlace where
  monadLift program := ExceptT.mk (StateT.lift (ExceptT.run program))

/-! ## Taking out and putting back -/

/-- Takes out what is in a slot and leaves the slot empty. -/
def take (slot : Slot α) : InPlace (Option α) :=
  modifyGet fun session => (slot.content? session, slot.fill session none)

/-- Puts something into a slot. -/
def put (slot : Slot α) (content : α) : InPlace Unit :=
  modify fun session => slot.fill session (some content)

/-- Puts something back into a slot when the work is over, and ends as the work has ended. -/
def restoring (slot : Slot α) (content : α) (work : InPlace β) : InPlace β := do
  let ending ← ExceptT.lift (ExceptT.run work)
  put slot content
  ExceptT.mk (pure ending)

/-! ## Programming -/

/-- Writes the image to the embedded flash. The firmware, if there is one, is out of the session
while it is written. -/
def programEmbeddedFlash (image : Image) : InPlace Device.UsercodeCheck := do
  let session ← get
  let _ ← Host.setClockFrequency Session.flashClock
  Device.send .configDisable
  Device.sendOpcode 0x00
  Host.setState .testLogicReset
  let status ← Device.readStatus
  if !(status.has .gowinValid || status.has .powerOnReset) then
    Host.log .error "Either GOWIN_VLD or POR should be set, aborting"
    Device.logStatus "before program flash"
    throw (.notReady status.bits)
  Device.EmbeddedFlash.erase session.profile session.limit
  Device.EmbeddedFlash.write session.profile session.limit 0 image
  if let some firmware ← take .firmware then
    restoring .firmware firmware
      (Device.EmbeddedFlash.write session.profile session.limit Session.firmwareAddress firmware)
  if session.job.verify then
    Host.log .warn "writing verification not supported"
  let check ← session.verifyUsercode image
  Device.logStatus "after program flash"
  pure check

/-- Lets the chip driver write the image to the external flash. The driver is out of the session for
as long, and `used` is what becomes of it. -/
def programExternalFlash (used : ChipDriver → ChipDriver) (offset : UInt32) (image : Image) :
    InPlace Device.UsercodeCheck := do
  match ← take .chipDriver with
  | none => throw .noChipDriver
  | some driver =>
    restoring .chipDriver (used driver) do
      let session ← get
      session.programExternalFlash driver offset image
    pure .skipped

/-- Writes the image to the memory that the session is for. -/
def programImage (used : ChipDriver → ChipDriver) (offset : UInt32) (image : Image) :
    InPlace Device.UsercodeCheck := do
  let session ← get
  match session.job.target with
  | .sram => session.programSram image
  | .flash =>
    if session.profile.withoutFlashWrite then
      Host.log .error ("flash programming is not supported on " ++ session.profile.family.name)
      throw (.unsupported "flash programming on this family")
    else if session.usesExternalFlash then
      programExternalFlash used offset image
    else
      programEmbeddedFlash image

/-- Writes the image of the session, which is out of the session for as long. Without an image
nothing is done. -/
def program (used : ChipDriver → ChipDriver) (offset : UInt32) : InPlace Device.UsercodeCheck := do
  match ← take .image with
  | none => pure .skipped
  | some image => restoring .image image (programImage used offset image)

/-! ## Running -/

/-- Runs work on a session over a cable: everything that came of it, and the session afterwards. -/
def run {σ : Type} (cable : Cable σ) (filter : LogFilter) (work : InPlace α) (session : Session)
    (device : σ) : Host.Outcome σ α × Session :=
  let ((result, session), device, exchanges) :=
    Dialogue.run (Host.surroundings cable filter).recording (StateT.run (ExceptT.run work) session)
      (device, [])
  ({ result, device, exchanges := exchanges.reverse }, session)

/-- A call of `program`. -/
structure ProgramCall where
  /-- Where an external flash is written. -/
  offset : UInt32
  /-- What becomes of a chip driver that is used. -/
  used : ChipDriver → ChipDriver

/-- Programs a session time and again, whatever comes of it: the session and the device
afterwards. -/
def programAll {σ : Type} (cable : Cable σ) (filter : LogFilter) :
    (calls : List ProgramCall) → (session : Session) → (device : σ) → Session × σ
  | [], session, device => (session, device)
  | call :: calls, session, device =>
    let (outcome, session) := run cable filter (program call.used call.offset) session device
    programAll cable filter calls session outcome.device

end InPlace

end FpgaProgrammer
