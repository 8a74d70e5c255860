import FpgaProgrammer.Proofs.CommandLine.Outcome
import FpgaProgrammer.Proofs.Programming.FreshDevice

/-!
# When the command `program` succeeds

The command loads its files, opens a session on the device that is chosen, and leaves the work to
the session. On the simulated device, fresh from its options, every one of these steps can be said
in terms of the command line and of the files:

* `payload_imageOf`, `header_imageOf`: what a file and the header fields make an image of.
* `Programmer.connect_ok_iff`, `Session.checkJob_ok_iff`, `Simulator.ends_open`: the device and the
  session.
* `complete_program_ok_iff_session`: the command is the sequence of these steps.
* `complete_program_ok_iff`: when it succeeds.
-/

namespace FpgaProgrammer

/-! ## Images -/

namespace CommandLine

open Run

/-- Of header fields with one name the last one counts, and a field that is set before is kept where
none of them has its name. Nothing else of the bitstream changes. -/
theorem withHeaders_eq (bitstream : Bitstream) (headers : List (String × String)) :
    ∃ fields, withHeaders bitstream headers = { bitstream with headers := fields } ∧
      ∀ name : String,
        fields[name]? = (headers.reverse.lookup name).or bitstream.headers[name]? := by
  induction headers generalizing bitstream with
  | nil => exact ⟨bitstream.headers, rfl, fun name => rfl⟩
  | cons header headers ih =>
    obtain ⟨key, value⟩ := header
    obtain ⟨fields, hfields, hlookup⟩ := ih (bitstream.withHeader key value)
    refine ⟨fields, hfields, fun name => ?_⟩
    rw [hlookup, List.reverse_cons, List.lookup_append, Option.or_assoc]
    congr 1
    by_cases hname : key = name
    · simp [Bitstream.withHeader, hname]
    · simp [Bitstream.withHeader, Std.ExtTreeMap.getElem?_insert, hname, Ne.symm hname]

section Images

variable (raw : Bool) (headers : List (String × String)) (data : Bytes)

/-- The payload of an image is the content of its file, all of it. -/
theorem payload_imageOf :
    (imageOf raw headers data).data = data ∧
      (imageOf raw headers data).bitLength = data.length * 8 ∧
      (imageOf raw headers data).checksum = checksum16 data := by
  obtain ⟨fields, hfields, -⟩ := withHeaders_eq (.ofData data) headers
  unfold imageOf
  rw [hfields]
  cases raw <;> exact ⟨rfl, rfl, rfl⟩

/-- A file is stored whole, whatever kind of image it is taken for. -/
theorem storableBytes_imageOf : (imageOf raw headers data).storableBytes = data := by
  obtain ⟨hdata, hlength, -⟩ := payload_imageOf raw headers data
  simp [Image.storableBytes, hdata, hlength]

/-- A file is streamed whole, whatever kind of image it is taken for. -/
theorem streamedBytes_imageOf : (imageOf raw headers data).streamedBytes = data := by
  obtain ⟨hdata, hlength, -⟩ := payload_imageOf raw headers data
  have hcount : Bytes.blockCount 8 (data.length * 8) = data.length := by
    unfold Bytes.blockCount
    omega
  simp [Image.streamedBytes, Image.loadableBits, hdata, hlength, hcount]

/-- The flag alone makes a file a raw image. -/
theorem kind_imageOf :
    (imageOf raw headers data).kind = if raw then .raw else .bitstream := by
  unfold imageOf
  cases raw <;> rfl

/-- Of several header fields of one name, the last one counts. -/
theorem header_imageOf (name : String) :
    (imageOf false headers data).header? name = headers.reverse.lookup name := by
  obtain ⟨fields, hfields, hlookup⟩ := withHeaders_eq (.ofData data) headers
  have hnone : (Bitstream.ofData data).headers[name]? = none := Std.ExtTreeMap.getElem?_empty
  unfold imageOf
  rw [hfields]
  refine (hlookup name).trans ?_
  rw [hnone, Option.or_none]

end Images

end CommandLine

/-! ## Opening a session -/

namespace Session

variable {idcode : UInt32} {job : Job}

/-- A bitstream fits the device that it declares, and a raw image an external flash. -/
theorem checkImage_ok_iff {externalFlash : Bool} {image : Image} :
    checkImage idcode externalFlash image = .ok () ↔
      (image.kind = .raw ∧ externalFlash = true) ∨
        (image.kind = .bitstream ∧ ∃ declared,
          (image.header? "idcode").bind Text.readHexWord? = some declared ∧
            declared &&& 0x0FFFFFFF = idcode) := by
  unfold checkImage
  cases hkind : image.kind with
  | raw => cases externalFlash <;> simp [pure, Except.pure]
  | bitstream =>
    cases hdeclared : (image.header? "idcode").bind Text.readHexWord? with
    | none => simp
    | some declared =>
      by_cases hsame : declared &&& 0x0FFFFFFF = idcode <;> simp [hsame, pure, Except.pure]

/-- A job with an image passes the check if the image does, and if firmware is only given for a
device that has a processor. -/
theorem checkJob_ok_iff {image : Image} (himage : job.image? = some image) :
    checkJob idcode job = .ok () ↔
      checkImage idcode job.externalFlash image = .ok () ∧
        (job.firmware?.isSome = true → idcode = 0x0100981B) := by
  unfold checkJob
  rw [himage]
  refine bind_eq_ok_iff.trans ?_
  have hprocessor : (if job.firmware?.isSome && !(Profile.ofIdcode idcode).hasProcessor then
      throw .firmwareUnsupported else pure () : Except Error Unit) = .ok () ↔
      (job.firmware?.isSome = true → idcode = 0x0100981B) := by
    rw [← Profile.hasProcessor_ofIdcode]
    cases job.firmware?.isSome <;> cases (Profile.ofIdcode idcode).hasProcessor <;>
      simp [pure, Except.pure]
  exact ⟨fun ⟨_, hchecked, h⟩ => ⟨hchecked, hprocessor.mp h⟩,
    fun ⟨hchecked, h⟩ => ⟨(), hchecked, hprocessor.mpr h⟩⟩

end Session

namespace Simulator

/-- Opening a session changes nothing, and ends like the check of the job. -/
theorem ends_open (filter : LogFilter) (sim : Simulator) (job : Job) :
    Ends filter (Session.open? job) sim
      ((Session.checkJob sim.config.idcode job).map fun _ => Session.ofJob sim.config.idcode job)
      sim := by
  have hidcode : Ends filter Host.readIdcode sim (.ok sim.config.idcode) sim := rfl
  unfold Session.open?
  refine hidcode.bind ((ends_log ..).bind ?_)
  cases Session.checkJob sim.config.idcode job with
  | ok _ => exact ends_pure ..
  | error error =>
    cases error with
    | idcodeMismatch image device => exact (ends_log ..).bind (ends_throw ..)
    | _ => exact ends_throw ..

end Simulator

/-- There can be an array of fewer than 2 ^ 63 bytes, and none of more. -/
theorem Nor.Config.fits_iff {config : Nor.Config} : config.fits = true ↔ config.size < 2 ^ 63 :=
  decide_eq_true_iff

/-- The programmer that can be chosen is the simulated device, which its options describe. It is
opened if there can be an array for its flash. -/
theorem Programmer.connect_ok_iff {text : String} {device : Simulator} :
    (connect text).2 = .ok device ↔
      ∃ config, find? (Choice.ofText text).name = some .simulated ∧
        (Simulator.readOptions (Choice.ofText text).options).2 = .ok config ∧
        config.flash.size < 2 ^ 63 ∧ device = .powerUp config := by
  unfold connect
  dsimp only
  cases find? (Choice.ofText text).name with
  | none => simp
  | some programmer =>
    cases programmer
    rcases Simulator.readOptions (Choice.ofText text).options with ⟨warnings, reason | config⟩
    · simp
    · dsimp only
      -- The options have been accepted; what is left to fail is the array.
      by_cases hsize : config.flash.size < 2 ^ 63
      · rw [if_pos (Nor.Config.fits_iff.mpr hsize)]
        constructor
        · intro h
          exact ⟨config, rfl, rfl, hsize, (Except.ok.inj h).symm⟩
        · rintro ⟨_, -, hoptions, -, rfl⟩
          rw [Except.ok.inj hoptions]
      · rw [if_neg fun hfits => hsize (Nor.Config.fits_iff.mp hfits)]
        constructor
        · intro h
          cases h
        · rintro ⟨_, -, hoptions, hfits, -⟩
          rw [← Except.ok.inj hoptions] at hfits
          exact absurd hfits hsize

namespace CommandLine

open Run

variable {surroundings : Surroundings} {request : ProgramRequest}

/-! ## The steps of the command -/

/-- The command succeeds with a check unless the check has failed. -/
theorem checkResult_ok_iff {check : Device.UsercodeCheck} :
    checkResult check = .ok () ↔ check.isOk = true := by
  cases check <;> simp [checkResult, Device.UsercodeCheck.isOk]

/-- An image is had from every file that can be read. -/
theorem imageResult_ok_iff {path : String} {raw : Bool} {headers : List (String × String)}
    {image : Image} :
    imageResult surroundings path raw headers = .ok image ↔
      ∃ data, surroundings.readFile path = .ok data ∧ image = imageOf raw headers data := by
  unfold imageResult
  cases surroundings.readFile path with
  | error reason => simp [Except.mapError, bind, Except.bind]
  | ok data => simp [Except.mapError, bind, Except.bind, pure, Except.pure, eq_comm]

/-- Firmware is read if a file with it is given. -/
theorem firmwareResult_ok_iff {firmware? : Option Image} :
    (request.firmware?.mapM fun path => imageResult surroundings path true []) = .ok firmware? ↔
      (request.firmware? = none ∧ firmware? = none) ∨
        ∃ path content, request.firmware? = some path ∧
          surroundings.readFile path = .ok content ∧ firmware? = some (.ofRaw content) := by
  cases request.firmware? with
  | none => simp [pure, Except.pure, eq_comm]
  | some path =>
    rw [Option.mapM_some, ← bind_pure_comp, bind_eq_ok_iff]
    simp only [imageResult_ok_iff, Option.some.injEq, reduceCtorEq, false_and, false_or]
    constructor
    · rintro ⟨_, ⟨content, hread, rfl⟩, hfirmware⟩
      cases hfirmware
      exact ⟨path, content, rfl, hread, rfl⟩
    · rintro ⟨_, content, rfl, hread, rfl⟩
      exact ⟨_, ⟨content, hread, rfl⟩, rfl⟩

/-- Firmware that is asked for has to be readable, and to be allowed. -/
theorem exists_firmwareResult_iff {allowed : Prop} :
    (∃ firmware?, (request.firmware?.mapM fun path => imageResult surroundings path true []) =
        .ok firmware? ∧ (firmware?.isSome = true → allowed)) ↔
      ∀ path, request.firmware? = some path →
        (∃ content, surroundings.readFile path = .ok content) ∧ allowed := by
  simp only [firmwareResult_ok_iff]
  constructor
  · rintro ⟨_, ⟨hnone, -⟩ | ⟨path, content, hpath, hcontent, rfl⟩, hallowed⟩ given hgiven
    · cases hnone.symm.trans hgiven
    · cases hpath.symm.trans hgiven
      exact ⟨⟨content, hcontent⟩, hallowed rfl⟩
  · intro h
    rcases Option.eq_none_or_eq_some request.firmware? with hnone | ⟨path, hpath⟩
    · exact ⟨none, .inl ⟨hnone, rfl⟩, fun hsome => nomatch hsome⟩
    · obtain ⟨⟨content, hcontent⟩, hallowed⟩ := h path hpath
      exact ⟨_, .inr ⟨path, content, hpath, hcontent, rfl⟩, fun _ => hallowed⟩

/-- Firmware takes as many bytes in the device as it has in its file. -/
theorem length_of_firmwareResult {firmware? : Option Image} {bound : Nat}
    (hfirmware : ∀ path content, request.firmware? = some path →
      surroundings.readFile path = .ok content → content.length < bound)
    (hread : (request.firmware?.mapM fun path => imageResult surroundings path true []) =
      .ok firmware?) :
    ∀ firmware, firmware? = some firmware → firmware.storableBytes.length < bound := by
  rintro firmware rfl
  rcases firmwareResult_ok_iff.mp hread with ⟨-, hnone⟩ | ⟨path, content, hpath, hcontent, hsome⟩
  · cases hnone
  · cases hsome
    rw [Image.storableBytes_ofRaw]
    exact hfirmware path content hpath hcontent

/-- A program hands back a value and a device if it ends with this value and leaves this device. -/
theorem deviceResult_ok_iff {α : Type} {device after : Simulator} {program : Host α} {value : α} :
    deviceResult surroundings device program = .ok (value, after) ↔
      (Host.run Simulator.cable surroundings.filter program device).result = .ok value ∧
        (Host.run Simulator.cable surroundings.filter program device).device = after := by
  unfold deviceResult
  generalize Host.run Simulator.cable surroundings.filter program device = outcome
  rcases outcome with ⟨error | result, device, exchanges⟩ <;>
    simp [Except.mapError, Except.map]

/-- A session is opened on the device that is chosen, if the job passes the check. -/
theorem sessionResult_ok_iff {choice : String} {job : Job} {session : Session}
    {device : Simulator} :
    sessionResult surroundings choice job = .ok (session, device) ↔
      (Programmer.connect choice).2 = .ok device ∧
        Session.checkJob device.config.idcode job = .ok () ∧
        session = .ofJob device.config.idcode job := by
  have hchosen : ∀ {chosen : Simulator},
      (Programmer.connect choice).2.mapError Failure.programmer = .ok chosen ↔
        (Programmer.connect choice).2 = .ok chosen := by
    intro chosen
    cases (Programmer.connect choice).2 <;> simp [Except.mapError]
  -- Opening leaves the device as it was chosen, so the session is on that very device.
  have hopened : ∀ {chosen : Simulator},
      deviceResult surroundings chosen (Session.open? job) = .ok (session, device) ↔
        (Session.checkJob chosen.config.idcode job = .ok () ∧
          session = .ofJob chosen.config.idcode job) ∧ chosen = device := by
    intro chosen
    obtain ⟨hresult, hdevice⟩ := (Simulator.ends_open surroundings.filter chosen job).run_eq
    rw [deviceResult_ok_iff, hresult, hdevice]
    cases Session.checkJob chosen.config.idcode job <;> simp [Except.map, eq_comm]
  refine bind_eq_ok_iff.trans ?_
  simp only [hchosen, hopened]
  constructor
  · rintro ⟨chosen, hconnect, hjob, rfl⟩
    exact ⟨hconnect, hjob⟩
  · rintro ⟨hconnect, hjob⟩
    exact ⟨device, hconnect, hjob, rfl⟩

/-- The command succeeds if its files can be read, a session is opened for them on the device that
is chosen, and the work of the session succeeds and finds the usercode as it should be. -/
theorem complete_program_ok_iff_session :
    ((Command.program request).complete surroundings).result = .ok () ↔
      ∃ image firmware? device,
        imageResult surroundings request.input request.raw request.headers = .ok image ∧
        (request.firmware?.mapM fun path => imageResult surroundings path true []) = .ok firmware? ∧
        (Programmer.connect request.programmer).2 = .ok device ∧
        Session.checkJob device.config.idcode (request.job image firmware?) = .ok () ∧
        ∃ check, (Host.run Simulator.cable surroundings.filter
            ((Session.ofJob device.config.idcode (request.job image firmware?)).program
              request.offset) device).result = .ok check ∧ check.isOk = true := by
  have hresult : ((Command.program request).complete surroundings).result = _ :=
    concludes_runProgram request {}
  rw [hresult]
  simp only [bind_eq_ok_iff, Prod.exists, sessionResult_ok_iff, deviceResult_ok_iff,
    checkResult_ok_iff]
  constructor
  · rintro ⟨image, himage, firmware?, hfirmware, session, device, ⟨hconnect, hjob, rfl⟩, check, _,
      ⟨hcheck, -⟩, hok⟩
    exact ⟨image, firmware?, device, himage, hfirmware, hconnect, hjob, check, hcheck, hok⟩
  · rintro ⟨image, firmware?, device, himage, hfirmware, hconnect, hjob, check, hcheck, hok⟩
    exact ⟨image, himage, firmware?, hfirmware, _, device, ⟨hconnect, hjob, rfl⟩, check, _,
      ⟨hcheck, rfl⟩, hok⟩

/-! ## The command as a whole -/

/-- The word that a request declares in a header field: the value given last, in hexadecimal. -/
def ProgramRequest.declared? (request : ProgramRequest) (name : String) : Option UInt32 :=
  (request.headers.reverse.lookup name).bind Text.readHexWord?

/-- A usercode stands for a payload if its low half is the checksum of the payload, or if the
request declares it as the checksum. -/
def ProgramRequest.Accepts (request : ProgramRequest) (data : Bytes) (usercode : UInt32) : Prop :=
  usercode.toUInt16 = checksum16 data ∨ request.declared? "checkSum" = some usercode

/-- The device accepts a usercode for an image exactly if the request accepts it for the bytes of
the file. -/
theorem usercodeMatches_imageOf {data : Bytes} {usercode : UInt32} :
    Device.usercodeMatches (imageOf false request.headers data) usercode = true ↔
      request.Accepts data usercode := by
  unfold Device.usercodeMatches ProgramRequest.Accepts ProgramRequest.declared?
  rw [header_imageOf, (payload_imageOf ..).2.2, Bool.or_eq_true, beq_iff_eq, beq_iff_eq]

/-- Unless the external flash is meant, the image may not be a raw one, and the device has to be the
one that it declares. -/
theorem checkImage_imageOf {idcode : UInt32} {data : Bytes} :
    Session.checkImage idcode false (imageOf request.raw request.headers data) = .ok () ↔
      request.raw = false ∧
        ∃ declared, request.declared? "idcode" = some declared ∧
          declared &&& 0x0FFFFFFF = idcode := by
  rw [Session.checkImage_ok_iff, kind_imageOf]
  cases hraw : request.raw with
  | true => simp
  | false =>
    rw [header_imageOf]
    simp [ProgramRequest.declared?]

/-- What the work of the session comes to, on a device that options describe. -/
theorem run_program_job_iff {filter : LogFilter} {config : SimulatorConfig}
    (hconfig : config.Compliant) {data : Bytes} (hlength : data.length < 2 ^ 33)
    {firmware? : Option Image}
    (hfirmware : ∀ firmware, firmware? = some firmware →
      firmware.storableBytes.length < 2 ^ 33) :
    let image := imageOf request.raw request.headers data
    let profile := Profile.ofIdcode config.idcode
    (∃ check, (Host.run Simulator.cable filter
        ((Session.ofJob config.idcode (request.job image firmware?)).program request.offset)
        (.powerUp config)).result = .ok check ∧ check.isOk = true) ↔
      (request.choice.flash = false ∧ request.choice.externalFlash = false ∧
          config.eraseLatency < 100000000 ∧
          (profile.withoutChecksum = true ∨ ∀ usercode, config.usercode? = some usercode →
            Device.usercodeMatches image usercode = true)) ∨
        (request.choice.flash = true ∧ request.choice.externalFlash = false ∧
          profile.externalFlashOnly = false ∧ data ≠ [] ∧
          Device.usercodeMatches image (config.usercode?.getD 0) = true) := by
  intro image profile
  have hchecksum : image.checksum = checksum16 image.streamedBytes := by
    rw [streamedBytes_imageOf]
    exact (payload_imageOf ..).2.2
  have hbytes : image.storableBytes = data := storableBytes_imageOf ..
  -- The limits of the flash hold of every file that is small enough, firmware included.
  have hfit : image.storableBytes.length ≤ 2 ^ 34 := by
    rw [hbytes]
    omega
  have hfit' : ∀ firmware, firmware? = some firmware →
      firmware.storableBytes.length + 256 * 14 ≤ 2 ^ 34 := fun firmware h => by
    have := hfirmware firmware h
    omega
  have hpoll : (request.job image firmware?).pollLimit.toNat = 100000000 := rfl
  have hlimit : 0 < (request.job image firmware?).pollLimit.toNat := by
    rw [hpoll]
    decide
  -- Asking for either flash makes flash the target, but only the embedded one is then written.
  by_cases hflash : request.choice.isFlash = true
  · have htarget : (request.job image firmware?).target = .flash := if_pos hflash
    rw [Simulator.run_program_flash_iff hconfig htarget rfl rfl hlimit hfit hfit', hbytes]
    constructor
    · rintro ⟨hexternal, hwritten⟩
      have hexternal : request.choice.externalFlash = false := hexternal
      rw [FlashChoice.isFlash, hexternal, Bool.or_false] at hflash
      exact .inr ⟨hflash, hexternal, hwritten⟩
    · rintro (⟨hnone, hexternal, -⟩ | ⟨-, hexternal, hwritten⟩)
      · rw [FlashChoice.isFlash, hnone, hexternal] at hflash
        cases hflash
      · exact ⟨hexternal, hwritten⟩
  · have htarget : (request.job image firmware?).target = .sram := if_neg hflash
    obtain ⟨hnone, hexternal⟩ :
        request.choice.flash = false ∧ request.choice.externalFlash = false :=
      Bool.or_eq_false_iff.mp (Bool.eq_false_of_not_eq_true hflash)
    rw [Simulator.run_program_sram_iff hconfig htarget rfl hlimit hchecksum, hpoll]
    simp only [hnone, hexternal, true_and, Bool.false_eq_true, false_and, or_false]
    rfl

/-- The command succeeds in two ways, and in both it needs the simulated device, with a flash for
which there can be an array, readable firmware if any, which only one family takes, and a bitstream
that is made for the device. Either neither flash is meant, the SRAM is erased in time, and a
usercode that is configured, if the family reports it, stands for the payload; or the embedded flash
is meant and there is one, the payload has a byte, and the usercode stands for it, which is zero
unless it is configured. -/
theorem complete_program_ok_iff {data : Bytes}
    (hinput : surroundings.readFile request.input = .ok data) (hlength : data.length < 2 ^ 33)
    (hfirmware : ∀ path content, request.firmware? = some path →
      surroundings.readFile path = .ok content → content.length < 2 ^ 33) :
    ((Command.program request).complete surroundings).result = .ok () ↔
      ∃ config,
        let choice := Programmer.Choice.ofText request.programmer
        let profile := Profile.ofIdcode config.idcode
        Programmer.find? choice.name = some .simulated ∧
        (Simulator.readOptions choice.options).2 = .ok config ∧
        config.flash.size < 2 ^ 63 ∧
        (∀ path, request.firmware? = some path →
          (∃ content, surroundings.readFile path = .ok content) ∧ config.idcode = 0x0100981B) ∧
        request.raw = false ∧
        (∃ declared, request.declared? "idcode" = some declared ∧
          declared &&& 0x0FFFFFFF = config.idcode) ∧
        ((request.choice.flash = false ∧ request.choice.externalFlash = false ∧
            config.eraseLatency < 100000000 ∧
            (profile.withoutChecksum = true ∨
              ∀ usercode, config.usercode? = some usercode → request.Accepts data usercode)) ∨
          (request.choice.flash = true ∧ request.choice.externalFlash = false ∧
            profile.externalFlashOnly = false ∧ data ≠ [] ∧
            request.Accepts data (config.usercode?.getD 0))) := by
  rw [complete_program_ok_iff_session]
  constructor
  · -- From the parts of the command to the conditions, in the order of the command. That no
    -- external flash is meant is only known from the work at its end, and says which check the
    -- image has passed.
    rintro ⟨_, firmware?, _, himage, hread, hconnect, hjob, hwork⟩
    obtain ⟨content, hcontent, rfl⟩ := imageResult_ok_iff.mp himage
    obtain rfl : data = content := Except.ok.inj (hinput.symm.trans hcontent)
    obtain ⟨config, hname, hoptions, hsize, rfl⟩ := Programmer.connect_ok_iff.mp hconnect
    obtain ⟨hchecked, hprocessor⟩ := (Session.checkJob_ok_iff rfl).mp hjob
    have hwork := (run_program_job_iff (Simulator.compliant_readOptions hoptions) hlength
      (length_of_firmwareResult hfirmware hread)).mp hwork
    have hexternal : request.choice.externalFlash = false := by
      rcases hwork with h | h
      · exact h.2.1
      · exact h.2.1
    rw [show (request.job _ firmware?).externalFlash = false from hexternal] at hchecked
    obtain ⟨hraw, hdeclared⟩ := checkImage_imageOf.mp hchecked
    rw [hraw] at hwork
    simp only [usercodeMatches_imageOf] at hwork
    exact ⟨config, hname, hoptions, hsize,
      exists_firmwareResult_iff.mp ⟨firmware?, hread, hprocessor⟩, hraw, hdeclared, hwork⟩
  · rintro ⟨config, hname, hoptions, hsize, hreadable, hraw, hdeclared, hwork⟩
    -- The firmware that is read is the one that its conditions are about.
    obtain ⟨firmware?, hread, hprocessor⟩ := exists_firmwareResult_iff.mpr hreadable
    have hexternal : request.choice.externalFlash = false := by
      rcases hwork with h | h
      · exact h.2.1
      · exact h.2.1
    have hchecked : Session.checkImage config.idcode false
        (imageOf request.raw request.headers data) = .ok () :=
      checkImage_imageOf.mpr ⟨hraw, hdeclared⟩
    rw [← hexternal] at hchecked
    refine ⟨_, firmware?, _, imageResult_ok_iff.mpr ⟨data, hinput, rfl⟩, hread,
      Programmer.connect_ok_iff.mpr ⟨config, hname, hoptions, hsize, rfl⟩,
      (Session.checkJob_ok_iff rfl).mpr ⟨hchecked, hprocessor⟩,
      (run_program_job_iff (Simulator.compliant_readOptions hoptions) hlength
        (length_of_firmwareResult hfirmware hread)).mpr ?_⟩
    rw [hraw]
    simp only [usercodeMatches_imageOf]
    exact hwork

/-- A design with firmware is written to the flash of a device that was made for the processor. The
device reports no checksum but its usercode, which the header declares; of the two idcodes in the
header the last one counts. -/
theorem complete_program_ok_iff_firmware :
    let surroundings : Surroundings :=
      { readFile := fun path =>
          if path = "design.fs" then .ok [1, 2, 3]
          else if path = "firmware.bin" then .ok [4, 5, 6] else .error "no such file"
        filter := none }
    let request : ProgramRequest :=
      { programmer := "sim:idcode=0x0100981B,usercode=CAFE"
        input := "design.fs"
        choice := { flash := true, externalFlash := false }
        offset := 0
        firmware? := some "firmware.bin"
        verify := false
        unprotect := false
        raw := false
        headers := [("idcode", "0900281B"), ("checkSum", "0xcafe"), ("idcode", "1100981B")] }
    ((Command.program request).complete surroundings).result = .ok () := by
  intro surroundings request
  have hfirmware : ∀ path content, request.firmware? = some path →
      surroundings.readFile path = .ok content → content.length < 2 ^ 33 := by
    intro path content hpath hcontent
    cases hpath
    have hcontent' : Except.ok [4, 5, 6] = .ok content := hcontent
    cases hcontent'
    decide
  refine (complete_program_ok_iff rfl (by decide) hfirmware).mpr
    ⟨{ idcode := 0x0100981B, usercode? := some 0xCAFE }, ?_⟩
  refine ⟨by decide +kernel, by decide +kernel, by decide, ?_, rfl,
    ⟨0x1100981B, by decide +kernel, rfl⟩,
    .inr ⟨rfl, rfl, rfl, by decide, .inr (by decide +kernel)⟩⟩
  rintro path hpath
  cases hpath
  exact ⟨⟨_, rfl⟩, rfl⟩

/-- A flash of 2 ^ 63 bytes is accepted, its size being a power of two, and a bitstream that is made
for the device is to be loaded into an SRAM that is erased in time. But there is no array of so many
bytes, and the program breaks off when it opens the device. -/
theorem complete_program_flash_too_large :
    let surroundings : Surroundings :=
      { readFile := fun path => if path = "design.fs" then .ok [1, 2, 3] else .error "no such file"
        filter := none }
    let request : ProgramRequest :=
      { programmer := "dummy:flash_size=9223372036854775808"
        input := "design.fs"
        choice := { flash := false, externalFlash := false }
        offset := 0
        firmware? := none
        verify := false
        unprotect := false
        raw := false
        headers := [("idcode", "0900281B")] }
    let choice := Programmer.Choice.ofText request.programmer
    (∃ config, Programmer.find? choice.name = some .simulated ∧
      (Simulator.readOptions choice.options).2 = .ok config ∧
      (∃ declared, request.declared? "idcode" = some declared ∧
        declared &&& 0x0FFFFFFF = config.idcode) ∧
      config.eraseLatency < 100000000 ∧ config.usercode? = none) ∧
    ((Command.program request).complete surroundings).result =
      .error (.programmer .flashTooLarge) ∧
    Failure.breaksOff (.programmer .flashTooLarge) = true := by
  refine ⟨⟨{ flash := { size := 2 ^ 63 } }, ?_⟩, by decide +kernel, rfl⟩
  exact ⟨by decide +kernel, by decide +kernel, ⟨0x0900281B, by decide +kernel, rfl⟩, by decide, rfl⟩

end CommandLine

end FpgaProgrammer
