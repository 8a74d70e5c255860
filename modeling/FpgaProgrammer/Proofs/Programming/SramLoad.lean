import FpgaProgrammer.Proofs.Programming.SramErase
import FpgaProgrammer.Proofs.Simulator.Noise

/-!
# Loading the SRAM of the simulated device

An image is streamed in scans and closed with its checksum word. On a device whose SRAM is erased:

* `scanned_chunkSizes`: the scans carry the announced bytes of the image, whatever their number.
* `endsNoisy_stream`: the device appends to its SRAM what arrives of the scans.
* `endsNoisy_loadSram`: the load succeeds exactly if the device runs what has arrived.
* `ends_loadSram`: without noise, so it does if the checksum of the image is the one of what was
  streamed, and then leaves the device running it (`loaded`, `loaded_of_eq`, `loaded_of_ne`).
-/

namespace FpgaProgrammer

/-- The bytes that hold the bits which can be shifted. -/
def Image.streamedBytes (image : Image) : Bytes :=
  image.data.take (Bytes.blockCount 8 image.loadableBits)

/-! ## The scans -/

namespace Device.Sram

/-- The bytes that the device takes from scans of the given sizes. -/
def scanned : (sizes : List Nat) → (data : Bytes) → Bytes
  | [], _ => []
  | bits :: sizes, data =>
    let length := Bytes.blockCount 8 bits
    Bytes.fit length (data.take length) ++ scanned sizes (data.drop (bits / 8))

/-- The sizes of the scans, and where they leave the TAP controller. -/
def scanEnds : (sizes : List Nat) → List (Nat × TapState)
  | [] => []
  | bits :: sizes =>
    (bits, if sizes.isEmpty then TapState.runTestIdle else TapState.shiftDr) :: scanEnds sizes

/-- A scan of bits that the data holds carries the bytes that they are in. -/
theorem fit_take {length : Nat} {data : Bytes} (h : length ≤ data.length) :
    Bytes.fit length (data.take length) = data.take length :=
  Bytes.fitWith_of_length (List.length_take_of_le h)

/-- The last scan carries the bytes that the remaining bits are in. -/
theorem scanned_rest {rest : Nat} {data : Bytes} (h : Bytes.blockCount 8 rest ≤ data.length) :
    scanned (if rest = 0 then [] else [rest]) data = data.take (Bytes.blockCount 8 rest) := by
  by_cases hrest : rest = 0
  · rw [hrest]
    rfl
  · rw [if_neg hrest, scanned, scanned, List.append_nil, fit_take h]

/-- A full scan carries a whole number of bytes. -/
theorem blockCount_chunkBits (count rest : Nat) :
    Bytes.blockCount 8 ((count + 1) * chunkBits + rest) =
      chunkBits / 8 + Bytes.blockCount 8 (count * chunkBits + rest) := by
  unfold Bytes.blockCount chunkBits
  omega

/-- Full scans and a last one carry the data without a gap between them. -/
theorem scanned_replicate (count : Nat) {rest : Nat} {data : Bytes}
    (h : Bytes.blockCount 8 (count * chunkBits + rest) ≤ data.length) :
    scanned (List.replicate count chunkBits ++ (if rest = 0 then [] else [rest])) data =
      data.take (Bytes.blockCount 8 (count * chunkBits + rest)) := by
  -- On the full scans: each is a whole number of bytes, so the next begins where it ended.
  induction count generalizing data with
  | zero =>
    rw [Nat.zero_mul, Nat.zero_add] at h ⊢
    exact scanned_rest h
  | succ count ih =>
    have hfull : Bytes.blockCount 8 chunkBits = chunkBits / 8 := rfl
    rw [blockCount_chunkBits] at h ⊢
    have hdrop : Bytes.blockCount 8 (count * chunkBits + rest) ≤
        (data.drop (chunkBits / 8)).length := by
      rw [List.length_drop]
      omega
    rw [List.replicate_succ, List.cons_append, scanned, ih hdrop, hfull,
      fit_take (Nat.le_trans (Nat.le_add_right ..) h), ← List.take_add]

/-- The scans that load `total` bits carry the bytes that these are in. -/
theorem scanned_chunkSizes {total : Nat} {data : Bytes}
    (h : Bytes.blockCount 8 total ≤ data.length) :
    scanned (chunkSizes total) data = data.take (Bytes.blockCount 8 total) := by
  have htotal : total / chunkBits * chunkBits + total % chunkBits = total :=
    Nat.div_add_mod' total chunkBits
  unfold chunkSizes
  rw [scanned_replicate _ (by rw [htotal]; exact h), htotal]

/-- The scans carry of an image what can be shifted of it. -/
theorem scanned_image (image : Image) :
    scanned (chunkSizes image.loadableBits) image.data = image.streamedBytes := by
  refine scanned_chunkSizes ?_
  unfold Bytes.blockCount Image.loadableBits
  omega

end Device.Sram

namespace Simulator

open Device.Sram (scanned scanEnds scanned_image)

variable (filter : LogFilter) {sim after : Simulator}

/-! ## Streaming -/

/-- The device after it took `bytes` in scans of the given sizes and end states. -/
def appended (sim : Simulator) (bytes : Bytes) (scans : List (Nat × TapState)) : Simulator :=
  { sim with sram := sim.sram ++ bytes, chunks := sim.chunks ++ scans.toArray }

/-- What is taken in two parts is taken one after the other. -/
theorem appended_append (sim : Simulator) (bytes rest : Bytes)
    (scans more : List (Nat × TapState)) :
    sim.appended (bytes ++ rest) (scans ++ more) =
      (sim.appended bytes scans).appended rest more := by
  simp [appended]

/-- While the device takes data for its SRAM, a scan appends to it. -/
theorem scan_transferWrite (hir : sim.ir = Instruction.transferWrite.opcode)
    (hedit : sim.editMode = true) (scan : Scan) :
    sim.scan scan =
      ([], sim.appended (Bytes.fit (Bytes.blockCount 8 scan.bits) (scan.tx?.getD []))
        [(scan.bits, scan.endState)]) := by
  unfold Simulator.scan appended
  rw [ofOpcode?_ir hir, ← Array.push_eq_append]
  exact if_pos hedit

/-- Streaming appends to the SRAM what arrives of the scans. Without noise, this is what they
carry. -/
theorem endsNoisy_stream (noise : Noise) (hir : sim.ir = Instruction.transferWrite.opcode)
    (hedit : sim.editMode = true) (sizes : List Nat) (sent : Nat) (data : Bytes) :
    ∃ bytes after,
      EndsNoisy noise filter (Device.Sram.stream sizes sent data) sim (.ok ()) after ∧
      Traffic (sim.appended bytes (scanEnds sizes)) after ∧
      (noise = .silent → bytes = scanned sizes data) := by
  -- On the sizes of the scans, each of which leaves the instruction in its register and the gate
  -- open.
  induction sizes generalizing sim sent data with
  | nil =>
    refine ⟨[], sim, endsNoisy_pure .., ?_, fun _ => rfl⟩
    simpa [appended, scanEnds] using Traffic.refl sim
  | cons bits sizes ih =>
    let tx := data.take (Bytes.blockCount 8 bits)
    let scan : Scan := ⟨some tx, none, bits,
      if sizes.isEmpty then TapState.runTestIdle else TapState.shiftDr⟩
    let bytes := Bytes.fit (Bytes.blockCount 8 bits) (noise sim tx)
    let taken := sim.appended bytes [(bits, scan.endState)]
    have hscan : noise.scan sim scan = { scan with tx? := some (noise sim tx) } := if_pos hir
    have hshift : EndsNoisy noise filter (Host.shiftDr scan) sim (.ok [])
        (taken.inState scan.endState) := by
      have hends := endsNoisy_shiftDr noise filter sim scan
      rwa [hscan, scan_transferWrite hir hedit] at hends
    have htaken : (taken.inState scan.endState).ir = Instruction.transferWrite.opcode := hir
    obtain ⟨rest, after, hends, htraffic, hsilent⟩ :=
      ih htaken hedit (sent + bits) (data.drop (bits / 8))
    -- What this scan appends and what the others append is appended together.
    have hall : sim.appended (bytes ++ rest) (scanEnds (bits :: sizes)) =
        taken.appended rest (scanEnds sizes) :=
      appended_append sim _ _ [(bits, scan.endState)] (scanEnds sizes)
    refine ⟨bytes ++ rest, after,
      hshift.bind ((endsNoisy_progress ..).bind hends), ?_, ?_⟩
    · rw [hall]
      exact ((traffic_inState taken scan.endState).map (·.appended rest (scanEnds sizes))
        (fun _ => rfl) fun _ => ⟨rfl, rfl⟩).trans htraffic
    · rintro rfl
      rw [hsilent rfl]
      rfl

/-! ## The load -/

/-- The device once it took the image and its checksum word, while the gate is still open. -/
def received (sim : Simulator) (image : Image) : Simulator :=
  { sim with
    editMode := true
    sram := image.streamedBytes
    chunks := (scanEnds (Device.Sram.chunkSizes image.loadableBits)).toArray
    checksum? := some image.checksum.toUInt32 }

/-- The device after the checksum word was compared and the gate closed. -/
def loaded (sim : Simulator) (image : Image) : Simulator :=
  ((sim.received image).execute .checksumEnd).execute .configDisable

/-- The device once these bytes have arrived for those of the image. -/
def receivedAs (sim : Simulator) (image : Image) (bytes : Bytes) : Simulator :=
  { sim.received image with sram := bytes }

/-- The device after the checksum word of the image was compared with these bytes, and the gate
closed. -/
def loadedAs (sim : Simulator) (image : Image) (bytes : Bytes) : Simulator :=
  ((sim.receivedAs image bytes).execute .checksumEnd).execute .configDisable

/-- A load in which the bytes of the image arrive is the load of the image. -/
theorem loadedAs_streamedBytes (sim : Simulator) (image : Image) :
    sim.loadedAs image image.streamedBytes = sim.loaded image :=
  rfl

/-- Loading has the same effect before and after traffic. -/
theorem Traffic.loaded (h : Traffic sim after) (image : Image) :
    Traffic (sim.loaded image) (after.loaded image) :=
  ((h.map (·.received image) (fun _ => rfl) fun _ => ⟨rfl, rfl⟩).execute .checksumEnd).execute
    .configDisable

/-- While the device is loaded, no SRAM erase is begun. -/
theorem eraseCountdown_loaded (sim : Simulator) (image : Image) :
    (sim.loaded image).eraseCountdown? = sim.eraseCountdown? :=
  (passing_execute _ Instruction.noConfusion Instruction.noConfusion).2.1.trans
    (passing_execute _ Instruction.noConfusion Instruction.noConfusion).2.1

/-- The device compares the checksum of the image with the one of what it holds. -/
theorem latchChecksum_receivedAs (sim : Simulator) (image : Image) (bytes : Bytes) :
    (sim.receivedAs image bytes).latchChecksum =
      if image.checksum = checksum16 bytes then
        { sim.receivedAs image bytes with
          sramValid := true
          usercode := sim.config.usercode?.getD image.checksum.toUInt32 }
      else
        { sim.receivedAs image bytes with sramValid := false } := by
  -- The word carries the checksum in its lower half, and nothing is lost in widening it.
  have hword : (some image.checksum.toUInt32 = some (checksum16 bytes).toUInt32) ↔
      image.checksum = checksum16 bytes := by
    rw [Option.some_inj]
    exact UInt16.toUInt32_inj
  unfold latchChecksum
  by_cases h : image.checksum = checksum16 bytes
  · rw [if_pos h, h]
    exact if_pos (hword.mpr h)
  · rw [if_neg h]
    exact if_neg (mt hword.mp h)

/-- With the right checksum the loaded design starts. -/
theorem loaded_of_eq (hsettled : sim.Settled) {image : Image}
    (h : image.checksum = checksum16 image.streamedBytes) :
    sim.loaded image =
      { sim.received image with
        editMode := false
        sramValid := false
        usercode := sim.config.usercode?.getD image.checksum.toUInt32
        doneFinal := true
        gowinValid := true
        powerOnReset := false } := by
  rw [← loadedAs_streamedBytes]
  unfold loadedAs
  dsimp only [execute]
  rw [latchChecksum_receivedAs, if_pos h, finishErase_of_unarmed _ (by exact hsettled.unarmed)]
  rfl

/-- With another checksum no design starts. -/
theorem loadedAs_of_ne (hunarmed : sim.eraseArmed = false) {image : Image} {bytes : Bytes}
    (h : image.checksum ≠ checksum16 bytes) :
    sim.loadedAs image bytes =
      { sim.receivedAs image bytes with editMode := false, sramValid := false } := by
  unfold loadedAs
  dsimp only [execute]
  rw [latchChecksum_receivedAs, if_neg h, finishErase_of_unarmed _ (by exact hunarmed)]
  rfl

/-- With another checksum no design starts. -/
theorem loaded_of_ne (hsettled : sim.Settled) {image : Image}
    (h : image.checksum ≠ checksum16 image.streamedBytes) :
    sim.loaded image = { sim.received image with editMode := false, sramValid := false } :=
  loadedAs_of_ne hsettled.unarmed h

/-- What has arrived stays in the SRAM, be it right or wrong. -/
theorem sram_loadedAs (sim : Simulator) (image : Image) (bytes : Bytes) :
    (sim.loadedAs image bytes).sram = bytes := by
  obtain ⟨_, _, _, _, _, _, _, hclosed⟩ :=
    configDisable_frame ((sim.receivedAs image bytes).execute .checksumEnd)
  unfold loadedAs
  rw [hclosed]
  dsimp only [execute]
  rw [latchChecksum_receivedAs]
  split <;> rfl

/-- What the instructions and scans of a load leave is the device that took what has arrived. -/
theorem receivedAs_eq (sim : Simulator) (image : Image) (bytes : Bytes) :
    { ({ sim with editMode := true }.execute .initAddress).appended bytes
        (scanEnds (Device.Sram.chunkSizes image.loadableBits)) with
      checksum? := some image.checksum.toUInt32 } = sim.receivedAs image bytes := by
  simp [receivedAs, received, appended, execute]

/-- While the device takes the checksum word, a scan of four bytes brings it. -/
theorem scan_checksumStart (hir : sim.ir = Instruction.checksumStart.opcode) (word : UInt32) :
    sim.scan ⟨some (Bytes.ofWordLE word), none, 32, .runTestIdle⟩ =
      ([], { sim with checksum? := some word }) := by
  have hlength : Bytes.blockCount 8 32 = 4 := rfl
  have hword : Bytes.wordLE (Bytes.fit 4 (Bytes.ofWordLE word)) = word := by
    rw [Bytes.fit, Bytes.fitWith_of_length (by rfl), Bytes.wordLE_ofWordLE]
  unfold scan
  rw [ofOpcode?_ir hir]
  dsimp only [Option.getD_some]
  rw [hlength, hword, if_pos (Nat.le_refl 4)]

/-- Over a noisy cable, the load succeeds exactly if the device runs what has arrived. -/
theorem endsNoisy_loadSram (noise : Noise) (sim : Simulator)
    (hstuck : sim.config.stuckEditMode = false) (image : Image) :
    ∃ bytes after,
      EndsNoisy noise filter (Device.Sram.load image) sim
        (if (sim.loadedAs image bytes).doneFinal then .ok () else .error (.writeFailed .sram))
        after ∧
      Watched (sim.loadedAs image bytes) after ∧
      (noise = .silent → bytes = image.streamedBytes) := by
  obtain ⟨logged, hlog, hlogged⟩ := ends_logStatus filter sim "before write sram"
  have hopened := hlogged.took .configEnable
  rw [execute_configEnable hstuck] at hopened
  have hwriting := (hopened.took .initAddress).took .transferWrite
  obtain ⟨bytes, streamed, hstream, hstreamed, hsilent⟩ := endsNoisy_stream filter noise
    (ir_took _ _) (hwriting.read editMode fun _ => rfl)
    (Device.Sram.chunkSizes image.loadableBits) 0 image.data
  have hstreamed := (hwriting.map (·.appended bytes
    (scanEnds (Device.Sram.chunkSizes image.loadableBits)))
    (fun _ => rfl) fun _ => ⟨rfl, rfl⟩).trans hstreamed.watched
  have hchecksum := ends_shiftDr_of_scan filter
    (scan_checksumStart (ir_took streamed _) image.checksum.toUInt32)
  -- The checksum word arrives last, after which the device has all it compares.
  have hreceived : Watched (sim.receivedAs image bytes)
      { streamed.took Instruction.checksumStart.opcode with
        checksum? := some image.checksum.toUInt32
        tap := .runTestIdle } := by
    rw [← receivedAs_eq]
    exact ((hstreamed.took .checksumStart).map
      ({ · with checksum? := some image.checksum.toUInt32 }) (fun _ => rfl)
      fun _ => ⟨rfl, rfl⟩).trans (Traffic.watched ⟨rfl, rfl, rfl⟩)
  have hloaded : Watched (sim.loadedAs image bytes) _ :=
    ((hreceived.took .checksumEnd).took .configDisable).took .noop
  obtain ⟨noted, hnote, hnoted⟩ := ends_logStatus filter _ "after write sram"
  have hnoted := hloaded.trans hnoted
  obtain ⟨read, hread, htraffic⟩ := ends_readStatus filter noted
  refine ⟨bytes, read, ?_, (hnoted.trans (.of_readStatus noted)).trans htraffic.watched,
    fun h => (hsilent h).trans (scanned_image image)⟩
  have hdone : noted.readStatus.1.has .doneFinal = (sim.loadedAs image bytes).doneFinal :=
    (has_readStatus _ StatusFlag.noConfusion).trans (hnoted.read doneFinal fun _ => rfl)
  -- The noise is heard in the stream only.
  have hir : (streamed.took Instruction.checksumStart.opcode).ir ≠
      Instruction.transferWrite.opcode := by
    rw [ir_took]
    decide
  have hshift := (unheard_shiftDr noise hir _).endsNoisy hchecksum
  have hlog := (unheard_logStatus noise _ _).endsNoisy hlog
  have hnote := (unheard_logStatus noise _ _).endsNoisy hnote
  have hread := (unheard_readStatus noise _).endsNoisy hread
  refine (endsNoisy_log ..).bind (hlog.bind ((endsNoisy_send ..).bind ((endsNoisy_send ..).bind
    ((endsNoisy_send ..).bind ((hstream.reporting ..).bind ((endsNoisy_send ..).bind (hshift.bind
      ((endsNoisy_send ..).bind ((endsNoisy_send ..).bind ((endsNoisy_send ..).bind (hnote.bind
        (hread.bind ?_))))))))))))
  rw [hdone]
  cases (sim.loadedAs image bytes).doneFinal with
  | true => exact endsNoisy_log ..
  | false => exact (endsNoisy_log ..).bind (endsNoisy_throw ..)

/-- The load succeeds exactly if the device runs the loaded design afterwards. -/
theorem ends_loadSram (hstuck : sim.config.stuckEditMode = false)
    (hidle : sim.eraseCountdown? = none) (image : Image) :
    ∃ after, Ends filter (Device.Sram.load image) sim
        (if (sim.loaded image).doneFinal then .ok () else .error (.writeFailed .sram)) after ∧
      Traffic (sim.loaded image) after := by
  obtain ⟨bytes, after, hends, hwatched, hsilent⟩ :=
    endsNoisy_loadSram filter .silent sim hstuck image
  rw [hsilent rfl, loadedAs_streamedBytes] at hends hwatched
  exact ⟨after, hends.ends, hwatched.traffic ((eraseCountdown_loaded sim image).trans hidle)⟩

end Simulator

end FpgaProgrammer
