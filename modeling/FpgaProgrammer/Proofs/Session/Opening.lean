import FpgaProgrammer.Proofs.Calls.Script
import FpgaProgrammer.Proofs.Text.HexWord
import FpgaProgrammer.Simulator.Step

/-!
# Opening a session

A session is opened over a cable that may answer anything, for a job that may ask for anything.

* `Image.Declares`: what the header of an image declares the idcode to be.
* `Image.Unfit`, `Job.Refused`: why an image does not fit a device, and why a job is refused.
* `checkImage_eq_error_iff`, `checkJob_eq_error_iff`: the checks find just this.
* `Session.runs_open`: how every run goes.
* `Session.open_decides`: over every cable, one call is made, and its reply and the job decide what
  comes of it.
-/

namespace FpgaProgrammer

variable {idcode : UInt32} {job : Job} {image : Image}

/-! ## Why a job is refused -/

/-- The header of the image declares the idcode. -/
def Image.Declares (image : Image) (declared : UInt32) : Prop :=
  ∃ text, image.header? "idcode" = some text ∧ Text.IsHexWord text.toList declared.toNat

/-- Why an image does not fit the device with the given idcode. -/
inductive Image.Unfit (image : Image) (idcode : UInt32) (externalFlash : Bool) : Error → Prop
  /-- A bitstream does not say for which device it is made. -/
  | missingIdcode (hkind : image.kind = .bitstream) (hnone : ∀ word, ¬ image.Declares word) :
      Unfit image idcode externalFlash .missingIdcode
  /-- A bitstream is made for another device. The top four bits of the idcode that it declares are
  not compared. -/
  | idcodeMismatch {declared : UInt32} (hkind : image.kind = .bitstream)
      (hdeclares : image.Declares declared) (hother : declared &&& 0x0FFFFFFF ≠ idcode) :
      Unfit image idcode externalFlash (.idcodeMismatch declared idcode)
  /-- A raw image is not wanted in the external flash, even if the device has no other. -/
  | incompatibleFormat (hkind : image.kind = .raw) (hembedded : externalFlash = false) :
      Unfit image idcode externalFlash .incompatibleFormat

/-- Why a job is refused for the device with the given idcode. -/
inductive Job.Refused (job : Job) (idcode : UInt32) : Error → Prop
  /-- Its image does not fit. -/
  | image {image : Image} {error : Error} (himage : job.image? = some image)
      (hunfit : image.Unfit idcode job.externalFlash error) : Refused job idcode error
  /-- There is nothing against its image, but the device has no processor for its firmware. -/
  | firmware
      (hfits : ∀ image ∈ job.image?, ∀ error, ¬ image.Unfit idcode job.externalFlash error)
      (hfirmware : job.firmware?.isSome = true)
      (hprocessor : (Profile.ofIdcode idcode).hasProcessor = false) :
      Refused job idcode .firmwareUnsupported

/-! ## Checks -/

/-- An image declares an idcode exactly if the header field that is looked up reads as one. -/
theorem Image.declares_iff {declared : UInt32} :
    image.Declares declared ↔
      (image.header? "idcode").bind Text.readHexWord? = some declared := by
  simp [Image.Declares, Option.bind_eq_some_iff, Text.readHexWord?_eq_some_iff]

namespace Session

/-- The check of an image ends with an error exactly if the image is unfit in the way that this
error reports. -/
theorem checkImage_eq_error_iff {externalFlash : Bool} {error : Error} :
    checkImage idcode externalFlash image = .error error ↔
      image.Unfit idcode externalFlash error := by
  unfold checkImage
  constructor
  · -- From the error to its reason, along the branches of the check.
    intro h
    split at h
    · next hkind =>
      split at h
      · next hnone =>
        cases h
        refine .missingIdcode hkind fun word hword => ?_
        simp [Image.declares_iff.mp hword] at hnone
      · next declared hdeclared =>
        split at h
        · cases h
        · next hother =>
          cases h
          exact .idcodeMismatch hkind (Image.declares_iff.mpr hdeclared) (by simpa using hother)
    · next hkind =>
      split at h
      · cases h
      · next hembedded =>
        cases h
        exact .incompatibleFormat hkind (by simpa using hembedded)
  · -- From the reason to the error: each reason decides the branches that come before it.
    rintro (⟨hkind, hnone⟩ | ⟨hkind, hdeclares, hother⟩ | ⟨hkind, hembedded⟩)
    · have hundeclared : (image.header? "idcode").bind Text.readHexWord? = none :=
        Option.eq_none_iff_forall_ne_some.mpr fun word hword =>
          hnone word (Image.declares_iff.mpr hword)
      simp only [hkind, hundeclared]
      rfl
    · have hdiffers : (_ == idcode) = false := beq_false_of_ne hother
      simp only [hkind, Image.declares_iff.mp hdeclares, hdiffers]
      rfl
    · simp only [hkind, hembedded]
      rfl

/-- What the check of the firmware finds. -/
theorem checkFirmware_eq_error_iff {error : Error} :
    (if job.firmware?.isSome && !(Profile.ofIdcode idcode).hasProcessor then
      throw .firmwareUnsupported else pure () : Except Error Unit) = .error error ↔
      error = .firmwareUnsupported ∧ job.firmware?.isSome = true ∧
        (Profile.ofIdcode idcode).hasProcessor = false := by
  cases job.firmware?.isSome <;> cases (Profile.ofIdcode idcode).hasProcessor <;>
    simp [pure, Except.pure, throw, throwThe, MonadExceptOf.throw, eq_comm]

/-- The check of a job finds why it is refused. The image is checked first. -/
theorem checkJob_eq_error_iff {error : Error} :
    checkJob idcode job = .error error ↔ job.Refused idcode error := by
  unfold checkJob
  cases himage : job.image? with
  -- Without an image the firmware alone is checked.
  | none =>
    refine checkFirmware_eq_error_iff.trans ⟨?_, ?_⟩
    · rintro ⟨rfl, hfirmware, hprocessor⟩
      exact .firmware (by simp [himage]) hfirmware hprocessor
    · rintro (⟨hsome, -⟩ | ⟨-, hfirmware, hprocessor⟩)
      · rw [himage] at hsome
        cases hsome
      · exact ⟨rfl, hfirmware, hprocessor⟩
  | some image =>
    dsimp only
    -- An image that is unfit hides what is wrong with the firmware.
    cases hcheck : checkImage idcode job.externalFlash image with
    | error found =>
      have hunfit := checkImage_eq_error_iff.mp hcheck
      constructor
      · intro h
        cases h
        exact .image himage hunfit
      · rintro (⟨hsome, hother⟩ | ⟨hfits, -, -⟩)
        · obtain rfl := Option.some_inj.mp (himage.symm.trans hsome)
          exact hcheck.symm.trans (checkImage_eq_error_iff.mpr hother)
        · exact absurd hunfit (hfits image himage found)
    | ok _ =>
      have hfits : ∀ error, ¬ image.Unfit idcode job.externalFlash error := by
        intro error hunfit
        rw [checkImage_eq_error_iff.mpr hunfit] at hcheck
        cases hcheck
      refine checkFirmware_eq_error_iff.trans ⟨?_, ?_⟩
      · rintro ⟨rfl, hfirmware, hprocessor⟩
        exact .firmware (by simpa [himage] using hfits) hfirmware hprocessor
      · rintro (⟨hsome, hunfit⟩ | ⟨-, hfirmware, hprocessor⟩)
        · obtain rfl := Option.some_inj.mp (himage.symm.trans hsome)
          exact absurd hunfit (hfits _)
        · exact ⟨rfl, hfirmware, hprocessor⟩

/-! ## Runs -/

/-- The idcode is read, and no other call is made. The idcode and the job decide how the run
ends. -/
theorem runs_open {exchanges : List (Exchange Request Request.Answer)}
    {result : Except Error Session} (h : Host.Runs (open? job) exchanges result) :
    ∃ (reply : Except Error UInt32) (rest : List (Exchange Request Request.Answer)),
      exchanges = ⟨.cable .readIdcode, reply⟩ :: rest ∧
      (∀ exchange ∈ rest, exchange.1.isCall = false) ∧
      result = reply.bind fun idcode => (checkJob idcode job).map fun _ => ofJob idcode job := by
  rcases Host.runs_bind_iff.mp h with
    ⟨idcode, first, later, rfl, hread, hlater⟩ | ⟨error, rfl, hread⟩
  · obtain rfl := Dialogue.runs_put_iff.mp hread
    obtain ⟨⟨⟩, rest, rfl, hrest⟩ := hlater.of_ask_bind
    refine ⟨.ok idcode, _, rfl, ?_⟩
    show _ ∧ result = (checkJob idcode job).map _
    cases hcheck : checkJob idcode job with
    | ok _ =>
      rw [hcheck] at hrest
      obtain ⟨rfl, rfl⟩ := Host.runs_pure_iff.mp hrest
      exact ⟨by simp [Request.isCall], rfl⟩
    | error error =>
      rw [hcheck] at hrest
      -- A mismatch is logged before it is thrown.
      cases error with
      | idcodeMismatch image device =>
        obtain ⟨⟨⟩, _, rfl, hthrow⟩ := Host.Runs.of_ask_bind hrest
        obtain ⟨rfl, rfl⟩ := Host.runs_throw_iff.mp hthrow
        exact ⟨by simp [Request.isCall], rfl⟩
      | _ =>
        obtain ⟨rfl, rfl⟩ := Host.runs_throw_iff.mp hrest
        exact ⟨by simp [Request.isCall], rfl⟩
  · obtain rfl := Dialogue.runs_put_iff.mp hread
    exact ⟨.error error, [], rfl, by simp, rfl⟩

/-- Over a cable, the idcode that it replies decides how opening ends. Nothing else happens at its
far end. -/
theorem run_open {σ : Type} (cable : Cable σ) (filter : LogFilter) (job : Job) (device : σ) :
    Host.callsOf (Host.run cable filter (open? job) device).exchanges = [.readIdcode] ∧
    (Host.run cable filter (open? job) device).device = (cable .readIdcode device).2 ∧
    (Host.run cable filter (open? job) device).result =
      Except.bind (cable .readIdcode device).1 fun idcode =>
        (checkJob idcode job).map fun _ => ofJob idcode job := by
  obtain ⟨hruns, hgives⟩ := Host.runs_gives_run cable filter (open? job) device
  rw [Host.run_device, Host.eval, hruns.run_eq hgives]
  obtain ⟨reply, rest, hexchanges, hsilent, hresult⟩ := runs_open hruns
  rw [hexchanges] at hgives ⊢
  obtain ⟨rfl, -⟩ := hgives
  refine ⟨?_, Host.replay_of_silent hsilent, hresult⟩
  exact congrArg _ (Host.follow_of_silent hsilent).calls_eq

/-- No bitstream fits a device whose idcode has one of its top four bits set. -/
theorem exists_unfit_of_top_bits (externalFlash : Bool) (hidcode : 2 ^ 28 ≤ idcode.toNat)
    (hkind : image.kind = .bitstream) : ∃ error, image.Unfit idcode externalFlash error := by
  by_cases hdeclared : ∃ declared, image.Declares declared
  · obtain ⟨declared, hdeclares⟩ := hdeclared
    refine ⟨_, .idcodeMismatch hkind hdeclares ?_⟩
    rintro rfl
    have hmasked : (declared &&& 0x0FFFFFFF).toNat ≤ 0x0FFFFFFF := by
      rw [UInt32.toNat_and]
      exact Nat.and_le_right
    omega
  · exact ⟨_, .missingIdcode hkind (not_exists.mp hdeclared)⟩

/-- To open a session over a cable, the idcode is read, and nothing else is done. If this fails, so
does opening. Otherwise the job is refused for a reason, or there is none, and the session is for
the job as it is. So no bitstream is taken for a device whose idcode has one of its top four bits
set. -/
theorem open_decides {σ : Type} (cable : Cable σ) (filter : LogFilter) (job : Job) (device : σ) :
    let reply : Except Error UInt32 := (cable .readIdcode device).1
    let outcome := Host.run cable filter (open? job) device
    Host.callsOf outcome.exchanges = [.readIdcode] ∧
    outcome.device = (cable .readIdcode device).2 ∧
    (∀ error, reply = .error error → outcome.result = .error error) ∧
    ∀ idcode, reply = .ok idcode →
      (∀ error, outcome.result = .error error ↔ job.Refused idcode error) ∧
      (∀ session, outcome.result = .ok session ↔
        (∀ error, ¬ job.Refused idcode error) ∧ session =
          { idcode, profile := .ofIdcode idcode, job,
            usesExternalFlash :=
              job.externalFlash || (Profile.ofIdcode idcode).externalFlashOnly }) ∧
      (2 ^ 28 ≤ idcode.toNat → ∀ image ∈ job.image?, image.kind = .bitstream →
        ∃ error, outcome.result = .error error) := by
  intro reply outcome
  obtain ⟨hcalls, hdevice, hresult⟩ := run_open cable filter job device
  change outcome.result = Except.bind reply _ at hresult
  refine ⟨hcalls, hdevice, fun error herror => by rw [hresult, herror]; rfl, fun idcode hok => ?_⟩
  rw [hok] at hresult
  change outcome.result = (checkJob idcode job).map _ at hresult
  -- The errors of opening are those of the check, whose reasons are known.
  have herror : ∀ error, outcome.result = .error error ↔ job.Refused idcode error := by
    intro error
    rw [hresult, ← checkJob_eq_error_iff]
    cases checkJob idcode job <;> simp [Except.map]
  refine ⟨herror, fun session => ?_, fun hidcode image himage hkind => ?_⟩
  · simp only [← herror]
    rw [hresult]
    cases checkJob idcode job with
    | error error => simp [Except.map]
    | ok _ => simp [Except.map, ofJob, eq_comm]
  · obtain ⟨error, hunfit⟩ := exists_unfit_of_top_bits job.externalFlash hidcode hkind
    exact ⟨error, (herror error).mpr (.image himage hunfit)⟩

/-- The idcode of the device, which has one of its top four bits set, is the one that the bitstream
declares; still it is refused. -/
theorem open_decides_same_idcode :
    let sim := Simulator.powerUp { idcode := 0x1100381B }
    let bitstream := (Bitstream.ofData []).withHeader "idcode" "0x1100381B"
    let outcome := Host.run Simulator.cable (some .trace)
      (open? { target := .sram, image? := some bitstream.toImage }) sim
    Host.callsOf outcome.exchanges = [.readIdcode] ∧
      outcome.result = .error (.idcodeMismatch 0x1100381B 0x1100381B) := by
  intro sim bitstream outcome
  obtain ⟨hcalls, -, -, hdecides⟩ := open_decides Simulator.cable (some .trace)
    { target := .sram, image? := some bitstream.toImage } sim
  have hdeclares : bitstream.toImage.Declares 0x1100381B :=
    ⟨"0x1100381B", by simp [bitstream, Bitstream.withHeader, Bitstream.toImage],
      Text.readHexWord?_eq_some_iff.mp (by decide +kernel)⟩
  exact ⟨hcalls, ((hdecides 0x1100381B rfl).1 _).mpr
    (.image rfl (.idcodeMismatch rfl hdeclares (by decide)))⟩

end Session

end FpgaProgrammer
