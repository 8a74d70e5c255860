import FpgaProgrammer.Proofs.Host.Runs
import FpgaProgrammer.Session

/-!
# What operations have in common with their parts

Many properties of programs carry over from the parts of a program to the whole: that only certain
instructions are sent, that no progress is reported, that the first failure ends the work.
`Host.Sequential P` and `Host.Closed P` say that `P` is such a property, and that it holds of the
calls that are the same for every operation. What is left to say about an operation is then which
instructions it may send and which errors it may throw, and these are the hypotheses of its lemma.

* `Sequential.pulse`, `Sequential.writeWords`: the loops that only move data and clocks.
* `Closed.logStatus`, `Closed.awaitStatus`: reading the status.
* `Closed.eraseSram`, `Closed.loadSram`, `Closed.eraseFlash`, `Closed.writeFlash`: the memories. A
  stage that is reported on is a hypothesis, as a property may well be about the reports.
* `Closed.programSram`, `Closed.programEmbeddedFlash`, `Closed.programExternalFlash`,
  `Closed.erase`: sessions.
* `closed_asks`: which questions are asked is such a property.
-/

namespace FpgaProgrammer

open Device

/-! ## The parts of an operation -/

namespace Host

/-- The erase of the embedded flash, once no design is running: the attempts, and the look at the
status that decides how it ends. -/
def emptyFlash (profile : Profile) (limit : Nat) : Host Unit := do
  log .info "Erase FLASH"
  reporting .eraseFlash Device.EmbeddedFlash.eraseAttempts
    (Device.EmbeddedFlash.tryErase profile limit Device.EmbeddedFlash.eraseAttempts 0)
  if (← Device.readStatus).has .doneFinal then
    log .error "Erase FLASH: FAIL"
    throw (.eraseFailed .flash)
  log .info "Erase FLASH: DONE"

/-- An erase stops a running design first. -/
theorem eraseFlash_eq (profile : Profile) (limit : Nat) :
    Device.EmbeddedFlash.erase profile limit = (do
      let status ← Device.readStatus
      if status.has .gowinValid then
        Device.Sram.erase limit
        emptyFlash profile limit
      else
        emptyFlash profile limit) :=
  rfl

/-- What is left of a write when the pages have been sent: the gate is closed, and the device boots
from what was written. -/
def finishWrite (limit : Nat) : Host Unit := do
  try
    Device.disableConfig limit
  catch error =>
    log .error "Write FLASH: failed to disable configuration"
    throw error
  Device.logStatus "after write flash"
  Device.reload
  Device.logStatus "after reload"
  flush
  sleep 500
  Device.logStatus "after flush"
  if (← Device.readStatus).has .doneFinal then
    log .info "Write FLASH: DONE"
  else
    log .error "Write FLASH: FAIL"
    throw (.writeFailed .flash)

/-- A write sends the pages and finishes. -/
theorem writeFlash_eq (profile : Profile) (limit : Nat) (base : UInt32) (image : Image) :
    Device.EmbeddedFlash.write profile limit base image = (do
      log .info "Write FLASH"
      Device.logStatus "before write flash"
      reporting .writeFlash image.storableBytes.length
        (Device.EmbeddedFlash.writePages (Device.EmbeddedFlash.delays profile) base
          (Bytes.blocks Device.EmbeddedFlash.pageSize image.storableBytes) 0)
      finishWrite limit) :=
  rfl

end Host

/-- What is left of programming the embedded flash once the device has been found ready. -/
def Session.rewriteEmbeddedFlash (session : Session) (image : Image) : Host UsercodeCheck := do
  EmbeddedFlash.erase session.profile session.limit
  EmbeddedFlash.write session.profile session.limit 0 image
  if let some firmware := session.job.firmware? then
    EmbeddedFlash.write session.profile session.limit firmwareAddress firmware
  if session.job.verify then
    Host.log .warn "writing verification not supported"
  let check ← session.verifyUsercode image
  Device.logStatus "after program flash"
  pure check

/-! ## Properties -/

namespace Host

/-- `P` carries over from the parts of a sequence to the sequence, and it holds of the calls that
move data and clocks. -/
structure Sequential (P : {α : Type} → Host α → Prop) : Prop where
  pure : ∀ {α : Type} (value : α), P (Pure.pure value)
  bind : ∀ {α β : Type} {program : Host α} {next : α → Host β}, P program →
    (∀ value, P (next value)) → P (program >>= next)
  shiftDr : ∀ scan, P (Host.shiftDr scan)
  setState : ∀ state, P (Host.setState state)
  toggleClock : ∀ cycles, P (Host.toggleClock cycles)
  clockFrequency : P Host.clockFrequency

/-- `P` also holds of the messages, of the question which of them are recorded, and of the calls of
the cable that send no instruction. -/
structure Closed (P : {α : Type} → Host α → Prop) : Prop extends Sequential P where
  log : ∀ level text, P (Host.log level text)
  records : ∀ level, P (Host.records level)
  flush : P Host.flush
  sleep : ∀ milliseconds, P (Host.sleep milliseconds)
  setClockFrequency : ∀ hertz, P (Host.setClockFrequency hertz)

/-- `P` holds of sending each of the instructions. -/
def MaySend (P : {α : Type} → Host α → Prop) (instructions : List Instruction) : Prop :=
  ∀ instruction ∈ instructions, P (send instruction)

variable {P : {α : Type} → Host α → Prop}

/-- Where many instructions may be sent, so may some of them. -/
theorem MaySend.mono {few many : List Instruction} (h : MaySend P many) (hsubset : few ⊆ many) :
    MaySend P few :=
  fun instruction hmem => h instruction (hsubset hmem)

/-! ## Which questions are asked -/

section Asks

variable {allowed : Request → Prop}

theorem asks_lift {α : Type} {d : HostDialogue α} (h : d.Asks allowed) :
    (ExceptT.run (ExceptT.lift d : Host α)).Asks allowed :=
  Dialogue.Asks.bind h fun _ => trivial

theorem asks_ask {request : Request} (h : allowed request) :
    (ExceptT.run (ask request)).Asks allowed :=
  asks_lift (d := Dialogue.put request) ⟨h, fun _ => trivial⟩

/-- Which questions are asked carries over to loops that only move data and clocks, where every call
but the shift of an instruction may be made. -/
theorem sequential_asks
    (hcable : ∀ call, (∀ data bits, call ≠ .shiftIr data bits) → allowed (.cable call)) :
    Sequential fun program => (ExceptT.run program).Asks allowed where
  pure _ := trivial
  bind := asks_bind
  shiftDr scan :=
    Dialogue.Asks.bind (d := call (.shiftDr scan)) ⟨hcable _ nofun, fun _ => trivial⟩ fun
      | .ok _ => trivial
      | .error _ => trivial
  setState _ := ⟨hcable _ nofun, fun _ => trivial⟩
  toggleClock _ := ⟨hcable _ nofun, fun _ => trivial⟩
  clockFrequency := asks_ask (hcable .clockFrequency nofun)

/-- Which questions are asked carries over to operations, where the log may be written and asked for
its filter as well. -/
theorem closed_asks
    (hcable : ∀ call, (∀ data bits, call ≠ .shiftIr data bits) → allowed (.cable call))
    (hlog : ∀ level text, allowed (.log level text))
    (hrecords : ∀ level, allowed (.records level)) :
    Closed fun program => (ExceptT.run program).Asks allowed where
  toSequential := sequential_asks hcable
  log level text := asks_ask (hlog level text)
  records level := asks_ask (hrecords level)
  flush := ⟨hcable _ nofun, fun _ => trivial⟩
  sleep milliseconds := asks_ask (hcable (.sleep milliseconds) nofun)
  setClockFrequency _ := ⟨hcable _ nofun, fun _ => trivial⟩

/-- Sending an instruction asks for one shift and for the clocks after it. -/
theorem asks_sendOpcode {code : UInt8} (hshift : allowed (.cable (.shiftIr [code] 8)))
    (hclock : allowed (.cable (.toggleClock settlingClocks))) :
    (ExceptT.run (sendOpcode code)).Asks allowed :=
  asks_bind ⟨hshift, fun _ => trivial⟩ fun _ => ⟨hclock, fun _ => trivial⟩

end Asks

/-! ## Data and clocks -/

namespace Sequential

theorem idle (h : Sequential P) (microseconds : Nat) : P (Device.idle microseconds) :=
  h.bind h.clockFrequency fun _ => h.toggleClock _

theorem pulse (h : Sequential P) (count : Nat) : P (EmbeddedFlash.pulse count) := by
  induction count with
  | zero => exact h.pure _
  | succ count ih =>
    exact h.bind (h.setState _) fun _ => h.bind (h.toggleClock _) fun _ =>
      h.bind (h.setState _) fun _ => ih

theorem writeWords (h : Sequential P) (delay : Nat) (words : List Bytes) :
    P (EmbeddedFlash.writeWords delay words) := by
  induction words with
  | nil => exact h.pure _
  | cons word words ih => exact h.bind (h.shiftDr _) fun _ => h.bind (h.idle _) fun _ => ih

/-- A payload is streamed in scans, with a report after each. -/
theorem stream (h : Sequential P) (hprogress : ∀ report, P (progress report)) (sizes : List Nat)
    (sent : Nat) (data : Bytes) : P (Sram.stream sizes sent data) := by
  induction sizes generalizing sent data with
  | nil => exact h.pure _
  | cons bits sizes ih =>
    exact h.bind (h.shiftDr _) fun _ => h.bind (hprogress _) fun _ => ih _ _

end Sequential

namespace Closed

/-! ## Registers -/

theorem readRegister (h : Closed P) {code : UInt8} (hsend : P (sendOpcode code)) :
    P (readRegister code) :=
  h.bind hsend fun _ => h.bind (h.shiftDr _) fun _ => h.pure _

theorem readStatus (h : Closed P) (hread : P (send .readStatus)) : P readStatus :=
  h.bind (h.readRegister hread) fun _ => h.pure _

theorem logStatus (h : Closed P) (hread : P (send .readStatus)) (occasion : String) :
    P (logStatus occasion) := by
  have hflags : ∀ flags : List StatusFlag,
      P (flags.forM fun flag => Host.log .debug ("\t" ++ flag.label)) := by
    intro flags
    induction flags with
    | nil => exact h.pure _
    | cons flag flags ih => exact h.bind (h.log _ _) fun _ => ih
  refine h.bind (h.records _) fun recorded => ?_
  cases recorded with
  | false => exact h.pure _
  | true => exact h.bind (h.readStatus hread) fun _ => h.bind (h.log _ _) fun _ => hflags _

/-- A wait sends one instruction only, and throws a time-out only. -/
theorem awaitStatus (h : Closed P) (hread : P (send .readStatus))
    (htimeout : P (throw .timeout : Host Unit)) (mask expected : Status) (limit : Nat) :
    P (awaitStatus mask expected limit) := by
  induction limit with
  | zero => exact h.bind (h.log _ _) fun _ => htimeout
  | succ limit ih =>
    refine h.bind (h.readStatus hread) fun status => h.bind (h.log _ _) fun _ => ?_
    split
    · exact h.pure _
    · exact ih

/-- The gate is opened with one instruction, and the status read until it is open. -/
theorem enableConfig (h : Closed P) (hsend : MaySend P [.configEnable, .readStatus])
    (htimeout : P (throw .timeout : Host Unit)) (limit : Nat) : P (enableConfig limit) :=
  h.bind (hsend _ (by decide)) fun _ => h.awaitStatus (hsend _ (by decide)) htimeout _ _ _

/-- The gate is closed with one instruction and one without effect, and the status read until it is
closed. -/
theorem disableConfig (h : Closed P) (hsend : MaySend P [.configDisable, .noop, .readStatus])
    (htimeout : P (throw .timeout : Host Unit)) (limit : Nat) : P (disableConfig limit) :=
  h.bind (hsend _ (by decide)) fun _ => h.bind (hsend _ (by decide)) fun _ =>
    h.awaitStatus (hsend _ (by decide)) htimeout _ _ _

theorem reload (h : Closed P) (hsend : MaySend P [.reload, .noop]) : P reload :=
  h.bind (hsend _ (by decide)) fun _ => hsend _ (by decide)

/-- A usercode is checked by reading it, whatever comes of the comparison. -/
theorem checkUsercode (h : Closed P) (hread : P (send .readUsercode)) (image : Image) :
    P (checkUsercode image) := by
  refine h.bind (h.readRegister hread) fun usercode => ?_
  split
  · exact h.bind (h.log _ _) fun _ => h.pure _
  · exact h.bind (h.log _ _) fun _ => h.bind (h.log _ _) fun _ => h.pure _

/-! ## The SRAM -/

/-- What the erase of the SRAM may send, and the two errors that it may throw. -/
theorem eraseSram (h : Closed P)
    (hsend : MaySend P
      [.readStatus, .configEnable, .eraseSram, .noop, .transferDone, .configDisable])
    (htimeout : P (throw .timeout : Host Unit))
    (hfailed : P (throw (.eraseFailed .sram) : Host Unit)) (limit : Nat) :
    P (Sram.erase limit) := by
  have hread : P (send .readStatus) := hsend _ (by decide)
  refine h.bind (h.log _ _) fun _ => h.bind (h.logStatus hread _) fun _ => ?_
  refine h.bind (h.enableConfig (hsend.mono (by decide)) htimeout _) fun _ => ?_
  refine h.bind (hsend _ (by decide)) fun _ => h.bind (hsend _ (by decide)) fun _ => ?_
  refine h.bind (h.awaitStatus hread htimeout _ _ _) fun _ => ?_
  refine h.bind (hsend _ (by decide)) fun _ => h.bind (hsend _ (by decide)) fun _ => ?_
  refine h.bind (h.disableConfig (hsend.mono (by decide)) htimeout _) fun _ => ?_
  refine h.bind (h.logStatus hread _) fun _ => h.bind (h.readStatus hread) fun status => ?_
  split
  · exact h.bind (h.log _ _) fun _ => h.bind hfailed fun _ => h.log _ _
  · exact h.log _ _

/-- What a load of the SRAM sends around its stream. There is no wait in it, so that a failed write
is the only error. -/
theorem loadSram (h : Closed P) {image : Image}
    (hsend : MaySend P [.readStatus, .configEnable, .initAddress, .transferWrite, .checksumStart,
      .checksumEnd, .configDisable, .noop])
    (hstream : P (reporting .loadSram image.loadableBits
      (Sram.stream (Sram.chunkSizes image.loadableBits) 0 image.data)))
    (hfailed : P (throw (.writeFailed .sram) : Host Unit)) : P (Sram.load image) := by
  have hread : P (send .readStatus) := hsend _ (by decide)
  refine h.bind (h.log _ _) fun _ => h.bind (h.logStatus hread _) fun _ => ?_
  refine h.bind (hsend _ (by decide)) fun _ => h.bind (hsend _ (by decide)) fun _ => ?_
  refine h.bind (hsend _ (by decide)) fun _ => h.bind hstream fun _ => ?_
  refine h.bind (hsend _ (by decide)) fun _ => h.bind (h.shiftDr _) fun _ => ?_
  refine h.bind (hsend _ (by decide)) fun _ => h.bind (hsend _ (by decide)) fun _ => ?_
  refine h.bind (hsend _ (by decide)) fun _ => ?_
  refine h.bind (h.logStatus hread _) fun _ => h.bind (h.readStatus hread) fun status => ?_
  split
  · exact h.log _ _
  · exact h.bind (h.log _ _) fun _ => hfailed

/-! ## The embedded flash -/

/-- What an attempt to erase the embedded flash may send. Whether it has succeeded is not its to
decide, so it may time out but not fail. -/
theorem attemptErase (h : Closed P)
    (hsend : MaySend P [.readStatus, .configEnable, .flashErase, .configDisable, .noop])
    (htimeout : P (throw .timeout : Host Unit)) (profile : Profile) (limit : Nat) :
    P (EmbeddedFlash.attemptErase profile limit) := by
  have hread : P (send .readStatus) := hsend _ (by decide)
  refine h.bind (h.logStatus hread _) fun _ => ?_
  refine h.bind (h.enableConfig (hsend.mono (by decide)) htimeout _) fun _ => ?_
  refine h.bind (hsend _ (by decide)) fun _ => h.bind (h.setState _) fun _ => ?_
  refine h.bind (h.pulse _) fun _ => h.bind (h.idle _) fun _ => ?_
  refine h.bind (h.disableConfig (hsend.mono (by decide)) htimeout _) fun _ => ?_
  exact h.bind h.flush fun _ => h.bind (h.sleep _) fun _ => h.readStatus hread

/-- Attempts are made one after the other, each with a report. -/
theorem tryErase (h : Closed P) {profile : Profile} {limit : Nat}
    (hattempt : P (EmbeddedFlash.attemptErase profile limit))
    (hprogress : ∀ report, P (progress report)) (left made : Nat) :
    P (EmbeddedFlash.tryErase profile limit left made) := by
  induction left generalizing made with
  | zero => exact h.pure _
  | succ left ih =>
    refine h.bind hattempt fun status => ?_
    refine h.bind (h.log _ _) fun _ => h.bind (hprogress _) fun _ => ?_
    split
    · exact ih _
    · exact h.pure _

/-- The attempts are followed by one look at the status, which may end the erase with its error. -/
theorem emptyFlash (h : Closed P) {profile : Profile} {limit : Nat}
    (hread : P (send .readStatus))
    (htries : P (reporting .eraseFlash EmbeddedFlash.eraseAttempts
      (EmbeddedFlash.tryErase profile limit EmbeddedFlash.eraseAttempts 0)))
    (hfailed : P (throw (.eraseFailed .flash) : Host Unit)) : P (emptyFlash profile limit) := by
  refine h.bind (h.log _ _) fun _ => h.bind htries fun _ => ?_
  refine h.bind (h.readStatus hread) fun status => ?_
  split
  · exact h.bind (h.log _ _) fun _ => h.bind hfailed fun _ => h.log _ _
  · exact h.log _ _

/-- An erase of the embedded flash consists of the erase of the SRAM, if a design is running, and of
the attempts. -/
theorem eraseFlash (h : Closed P) {profile : Profile} {limit : Nat}
    (hread : P (send .readStatus)) (hsram : P (Sram.erase limit))
    (hempty : P (Host.emptyFlash profile limit)) : P (EmbeddedFlash.erase profile limit) := by
  rw [eraseFlash_eq]
  refine h.bind (h.readStatus hread) fun status => ?_
  split
  · exact h.bind hsram fun _ => hempty
  · exact hempty

/-- What is sent to write one page. -/
theorem writePage (h : Closed P) (hsend : MaySend P [.configEnable, .noop, .flashProgram])
    (delays : EmbeddedFlash.Delays) (address : UInt32) (data : Bytes) :
    P (EmbeddedFlash.writePage delays address data) := by
  unfold EmbeddedFlash.writePage
  extract_lets page
  have hpage : ∀ u, P (page u) := by
    intro _
    refine h.bind (hsend _ (by decide)) fun _ => h.bind (hsend _ (by decide)) fun _ => ?_
    refine h.bind (hsend _ (by decide)) fun _ => h.bind (h.shiftDr _) fun _ => ?_
    exact h.bind (h.idle _) fun _ => h.bind (h.writeWords _ _) fun _ => h.idle _
  -- Only the page at address 0 is written without a pause before it.
  split
  · exact h.bind (h.idle _) hpage
  · exact hpage ()

theorem writePages (h : Closed P) (hsend : MaySend P [.configEnable, .noop, .flashProgram])
    (hprogress : ∀ report, P (progress report)) (delays : EmbeddedFlash.Delays) (base : UInt32)
    (pages : List Bytes) (index : Nat) :
    P (EmbeddedFlash.writePages delays base pages index) := by
  induction pages generalizing index with
  | nil => exact h.pure _
  | cons data pages ih =>
    exact h.bind (h.writePage hsend _ _ _) fun _ => h.bind (hprogress _) fun _ => ih _

/-- What is sent after the last page, and the errors that this may end with. A gate that does not
close is reported and its error thrown again. -/
theorem finishWrite (h : Closed P)
    (hsend : MaySend P [.configDisable, .noop, .readStatus, .reload])
    (htimeout : P (throw .timeout : Host Unit))
    (hfailed : P (throw (.writeFailed .flash) : Host Unit))
    (hrethrow : ∀ {program : Host Unit} (text : String), P program →
      P (tryCatch program fun error => do
        Host.log .error text
        throw error))
    (limit : Nat) : P (finishWrite limit) := by
  have hread : P (send .readStatus) := hsend _ (by decide)
  have hclose := h.disableConfig (hsend.mono (by decide)) htimeout limit
  refine h.bind (hrethrow _ hclose) fun _ => h.bind (h.logStatus hread _) fun _ => ?_
  refine h.bind (h.reload (hsend.mono (by decide))) fun _ => ?_
  refine h.bind (h.logStatus hread _) fun _ => h.bind h.flush fun _ => ?_
  refine h.bind (h.sleep _) fun _ => h.bind (h.logStatus hread _) fun _ => ?_
  refine h.bind (h.readStatus hread) fun status => ?_
  split
  · exact h.log _ _
  · exact h.bind (h.log _ _) fun _ => hfailed

/-- A write consists of the pages, which are reported on as one stage, and of what follows them. -/
theorem writeFlash (h : Closed P) {profile : Profile} {limit : Nat} {base : UInt32}
    {image : Image} (hread : P (send .readStatus))
    (hpages : P (reporting .writeFlash image.storableBytes.length
      (EmbeddedFlash.writePages (EmbeddedFlash.delays profile) base
        (Bytes.blocks EmbeddedFlash.pageSize image.storableBytes) 0)))
    (hfinish : P (Host.finishWrite limit)) :
    P (EmbeddedFlash.write profile limit base image) := by
  rw [writeFlash_eq]
  refine h.bind (h.log _ _) fun _ => h.bind (h.logStatus hread _) fun _ => ?_
  exact h.bind hpages fun _ => hfinish

/-! ## Sessions -/

variable {session : Session}

/-- A session reads the usercode to verify an image, unless the family keeps no checksum. -/
theorem verifyUsercode (h : Closed P) (hread : P (send .readUsercode)) (session : Session)
    (image : Image) : P (session.verifyUsercode image) := by
  unfold Session.verifyUsercode
  split
  · exact h.pure _
  · exact h.checkUsercode hread image

/-- What a session sends around the erase and the load of the SRAM. -/
theorem programSram (h : Closed P) {image : Image}
    (hsend : MaySend P [.readStatus, .reload, .noop, .readUsercode])
    (herase : P (Sram.erase session.limit)) (hload : P (Sram.load image)) :
    P (session.programSram image) := by
  have hread : P (send .readStatus) := hsend _ (by decide)
  unfold Session.programSram
  refine h.bind (h.logStatus hread _) fun _ => ?_
  extract_lets load
  have hload : ∀ u, P (load u) := by
    intro _
    refine h.bind herase fun _ => h.bind hload fun _ => ?_
    refine h.bind (h.verifyUsercode (hsend _ (by decide)) _ _) fun _ => ?_
    exact h.bind (h.logStatus hread _) fun _ => h.pure _
  -- Some families are reloaded before.
  split
  · refine h.bind (h.reload (hsend.mono (by decide))) fun _ => ?_
    exact h.bind (h.setState _) fun _ => h.bind (h.toggleClock _) hload
  · exact hload ()

/-- A session rewrites the embedded flash by an erase and by a write of the image, and of the
firmware if there is some. -/
theorem rewriteEmbeddedFlash (h : Closed P) (hsend : MaySend P [.readStatus, .readUsercode])
    (herase : P (EmbeddedFlash.erase session.profile session.limit))
    (hwrite : ∀ base image, P (EmbeddedFlash.write session.profile session.limit base image))
    (image : Image) :
    P (session.rewriteEmbeddedFlash image) := by
  unfold Session.rewriteEmbeddedFlash
  extract_lets finish warn
  have hfinish : ∀ u, P (finish u) := fun _ =>
    h.bind (h.verifyUsercode (hsend _ (by decide)) _ _) fun _ =>
      h.bind (h.logStatus (hsend _ (by decide)) _) fun _ => h.pure _
  have hwarn : ∀ u, P (warn u) := by
    intro _
    unfold warn
    split
    · exact h.bind (h.log _ _) hfinish
    · exact hfinish ()
  refine h.bind herase fun _ => h.bind (hwrite _ _) fun _ => ?_
  split
  · exact h.bind (hwrite _ _) hwarn
  · exact hwarn ()

/-- What a session sends before the embedded flash is rewritten, and the error by which it refuses a
device that is not ready. -/
theorem programEmbeddedFlash (h : Closed P) {image : Image}
    (hsend : MaySend P [.configDisable, .readStatus, .readUsercode])
    (hnothing : P (sendOpcode 0x00))
    (hnotReady : ∀ status, P (throw (.notReady status) : Host PUnit))
    (herase : P (EmbeddedFlash.erase session.profile session.limit))
    (hwrite : ∀ base image, P (EmbeddedFlash.write session.profile session.limit base image)) :
    P (session.programEmbeddedFlash image) := by
  have hread : P (send .readStatus) := hsend _ (by decide)
  unfold Session.programEmbeddedFlash
  refine h.bind (h.setClockFrequency _) fun _ => h.bind (hsend _ (by decide)) fun _ => ?_
  refine h.bind hnothing fun _ => h.bind (h.setState _) fun _ => ?_
  refine h.bind (h.readStatus hread) fun status => ?_
  have hrewrite := h.rewriteEmbeddedFlash (hsend.mono (by decide)) herase hwrite image
  extract_lets finish warn write
  split
  · exact h.bind (h.log _ _) fun _ => h.bind (h.logStatus hread _) fun _ =>
      h.bind (hnotReady _) fun _ => hrewrite
  · exact hrewrite

/-- What a session sends to hand the device over to a chip driver and to boot it again afterwards.
The driver itself is a hypothesis. -/
theorem programExternalFlash (h : Closed P) {driver : ChipDriver} {offset : UInt32} {image : Image}
    (hsend : MaySend P [.readStatus, .configEnable, .transferDone, .noop, .configDisable,
      .spiBoundaryScan, .reload])
    (htimeout : P (throw .timeout : Host Unit))
    (hrethrow : ∀ {program : Host Unit} (text : String), P program →
      P (tryCatch program fun error => do
        Host.log .error text
        throw error))
    (herase : P (Sram.erase session.limit))
    (hdriver : P ((driver offset image.storableBytes
      ⟨session.job.verify, session.job.unprotect⟩).onHost session.profile.spi)) :
    P (session.programExternalFlash driver offset image) := by
  have henable := h.enableConfig (hsend.mono (by decide)) htimeout session.limit
  have hdisable := h.disableConfig (hsend.mono (by decide)) htimeout session.limit
  have hclose := h.reload (hsend.mono (by decide))
  unfold Session.programExternalFlash
  refine h.bind (h.setClockFrequency _) fun _ => h.bind (hrethrow _ henable) fun _ => ?_
  refine h.bind herase fun _ => ?_
  refine h.bind (hsend _ (by decide)) fun _ => h.bind (hsend _ (by decide)) fun _ => ?_
  -- How the flash is reached decides what is sent before and after the driver works.
  extract_lets finish serve
  have hserve : ∀ u, P (serve u) := by
    intro _
    refine h.bind hdriver fun _ => ?_
    split
    · exact h.bind hdisable fun _ => hclose
    · exact hclose
  split
  · exact h.bind hdisable fun _ => h.bind (hsend _ (by decide)) hserve
  · exact h.bind (hsend _ (by decide)) hserve

theorem erase (h : Closed P) (hsram : P (Sram.erase session.limit))
    (hunsupported : ∀ text, P (throw (.unsupported text) : Host Unit))
    (hflash : P (EmbeddedFlash.erase session.profile session.limit)) : P session.erase := by
  unfold Session.erase
  split
  · exact hsram
  · split
    · exact hunsupported _
    · split
      · exact hunsupported _
      · exact h.bind (h.setClockFrequency _) fun _ => hflash

end Closed

end Host

end FpgaProgrammer
