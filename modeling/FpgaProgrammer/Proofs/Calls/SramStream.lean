import FpgaProgrammer.Proofs.Calls.Simulated
import FpgaProgrammer.Proofs.Programming.SramLoad

/-!
# The scans that load an image

Over a cable that works, loading an image into SRAM is a script, whatever the cable answers, and the
scans of it carry the payload exactly once.

* `Device.Sram.scans` — the scans that stream data, by their sizes.
* `Device.Sram.Streams` — scans that carry a payload: there are as many as it takes, only the last
  one closes the data register, and together they are the payload.
* `streams_scans` — the scans of a load are such scans.
* `run_loadSram` — between the instructions of a load, the cable is called for them alone.
-/

namespace FpgaProgrammer

namespace Device.Sram

/-! ## Sizes -/

/-- There are as many scans as it takes. -/
theorem length_chunkSizes (total : Nat) :
    (chunkSizes total).length = Bytes.blockCount chunkBits total := by
  unfold chunkSizes Bytes.blockCount chunkBits
  by_cases h : total % 524288 = 0
  · simp [h]
    omega
  · simp [h]
    omega

/-- No bit is left out, and none goes twice. -/
theorem sum_chunkSizes (total : Nat) : (chunkSizes total).sum = total := by
  have htotal : total / chunkBits * chunkBits + total % chunkBits = total :=
    Nat.div_add_mod' total chunkBits
  unfold chunkSizes
  by_cases h : total % chunkBits = 0
  · simp [h]
    omega
  · simp [h, htotal]

/-- All sizes but the last one are full. -/
theorem mem_dropLast_chunkSizes {total bits : Nat} (h : bits ∈ (chunkSizes total).dropLast) :
    bits = chunkBits := by
  unfold chunkSizes at h
  split at h
  · rw [List.append_nil] at h
    exact List.eq_of_mem_replicate (List.dropLast_subset _ h)
  · rw [List.dropLast_concat] at h
    exact List.eq_of_mem_replicate h

/-- No scan is empty or too long. -/
theorem mem_chunkSizes {total bits : Nat} (h : bits ∈ chunkSizes total) :
    1 ≤ bits ∧ bits ≤ chunkBits := by
  have hpos : 0 < chunkBits := by decide
  rcases List.mem_append.mp h with hfull | hrest
  · rw [List.eq_of_mem_replicate hfull]
    exact ⟨hpos, Nat.le_refl _⟩
  · split at hrest
    · cases hrest
    · rw [List.mem_singleton.mp hrest]
      exact ⟨Nat.pos_of_ne_zero ‹_›, Nat.le_of_lt (Nat.mod_lt _ hpos)⟩

/-! ## Scans -/

/-- The scans that stream data, by their sizes. -/
def scans : (sizes : List Nat) → (data : Bytes) → List Scan
  | [], _ => []
  | bits :: sizes, data =>
    ⟨some (data.take (Bytes.blockCount 8 bits)), none, bits,
      if sizes.isEmpty then TapState.runTestIdle else TapState.shiftDr⟩ ::
      scans sizes (data.drop (bits / 8))

/-- The scans are as long as the sizes that the payload was cut into. -/
@[simp]
theorem map_bits_scans (sizes : List Nat) (data : Bytes) :
    (scans sizes data).map (·.bits) = sizes := by
  induction sizes generalizing data with
  | nil => rfl
  | cons bits sizes ih => simp [scans, ih]

/-- There is one scan for every size. -/
@[simp]
theorem length_scans (sizes : List Nat) (data : Bytes) :
    (scans sizes data).length = sizes.length := by
  rw [← List.length_map (·.bits), map_bits_scans]

/-- Only the last scan closes the data register. -/
theorem endState_scans (sizes : List Nat) (data : Bytes) :
    (∀ scan ∈ (scans sizes data).dropLast, scan.endState = .shiftDr) ∧
      ∀ scan ∈ (scans sizes data).getLast?, scan.endState = .runTestIdle := by
  induction sizes generalizing data with
  | nil => simp [scans]
  | cons bits sizes ih =>
    obtain ⟨hinner, hlast⟩ := ih (data.drop (bits / 8))
    cases sizes with
    | nil => simp [scans]
    | cons more sizes =>
      -- More scans follow, and the last one of them is the last of all.
      have hmore : scans (more :: sizes) (data.drop (bits / 8)) ≠ [] := by simp [scans]
      rw [scans, List.dropLast_cons_of_ne_nil hmore, List.getLast?_cons_of_ne_nil hmore]
      exact ⟨List.forall_mem_cons.mpr ⟨rfl, hinner⟩, hlast⟩

/-- Nothing is captured while the SRAM is loaded. -/
theorem rxLength?_scans {sizes : List Nat} {data : Bytes} {scan : Scan}
    (h : scan ∈ scans sizes data) : scan.rxLength? = none := by
  induction sizes generalizing data with
  | nil => cases h
  | cons bits sizes ih =>
    rcases List.mem_cons.mp h with rfl | h
    · rfl
    · exact ih h

/-- The scan brings as many bytes as its bits are in. -/
def Fills (scan : Scan) : Prop :=
  ∃ bytes, scan.tx? = some bytes ∧ bytes.length = Bytes.blockCount 8 scan.bits

/-- Full scans and a last one are filled by data that holds their bits. -/
theorem fills_scans_replicate (count : Nat) {rest : Nat} {data : Bytes}
    (h : Bytes.blockCount 8 (count * chunkBits + rest) ≤ data.length) :
    ∀ scan ∈ scans (List.replicate count chunkBits ++ (if rest = 0 then [] else [rest])) data,
      Fills scan := by
  -- On the full scans: each takes its bytes off the front of the data.
  induction count generalizing data with
  | zero =>
    rw [Nat.zero_mul, Nat.zero_add] at h
    by_cases hrest : rest = 0
    · simp [hrest, scans]
    · simp [hrest, scans, Fills, Nat.min_eq_left h]
  | succ count ih =>
    have hfull : Bytes.blockCount 8 chunkBits = chunkBits / 8 := rfl
    rw [blockCount_chunkBits] at h
    rw [List.replicate_succ, List.cons_append, scans, hfull]
    refine List.forall_mem_cons.mpr ⟨⟨_, rfl, ?_⟩, ih ?_⟩
    · exact (List.length_take_of_le (Nat.le_trans (Nat.le_add_right ..) h)).trans hfull.symm
    · rw [List.length_drop]
      omega

/-- Scans that are filled bring what the device takes from them. -/
theorem flatMap_tx_scans {sizes : List Nat} {data : Bytes}
    (h : ∀ scan ∈ scans sizes data, Fills scan) :
    (scans sizes data).flatMap (·.tx?.getD []) = scanned sizes data := by
  induction sizes generalizing data with
  | nil => rfl
  | cons bits sizes ih =>
    obtain ⟨⟨_, ⟨⟩, hlength⟩, hrest⟩ := List.forall_mem_cons.mp h
    rw [scans, List.flatMap_cons, ih hrest, scanned, Bytes.fit, Bytes.fitWith_of_length hlength]
    rfl

/-! ## Scans that carry a payload -/

/-- The scans carry the bits of a payload, in order, each of them once. -/
structure Streams (scans : List Scan) (total : Nat) (data : Bytes) : Prop where
  /-- There are as many as it takes. -/
  length_eq : scans.length = Bytes.blockCount chunkBits total
  /-- They have as many bits as the payload. -/
  sum_eq : (scans.map (·.bits)).sum = total
  /-- All but the last one are full, and leave the data register open. -/
  inner : ∀ scan ∈ scans.dropLast, scan.bits = chunkBits ∧ scan.endState = .shiftDr
  /-- The last one is not empty, and closes the data register. -/
  last : ∀ scan ∈ scans.getLast?,
    1 ≤ scan.bits ∧ scan.bits ≤ chunkBits ∧ scan.endState = .runTestIdle
  /-- Each brings as many bytes as its bits are in, and wants nothing back. -/
  fills : ∀ scan ∈ scans, Fills scan ∧ scan.rxLength? = none
  /-- The bytes are those that the payload is in. -/
  payload : scans.flatMap (·.tx?.getD []) = data.take (Bytes.blockCount 8 total)

/-- The scans that stream data carry as many bits of it as are asked for. -/
theorem streams_scans {total : Nat} {data : Bytes} (h : total ≤ 8 * data.length) :
    Streams (scans (chunkSizes total) data) total data := by
  have htotal : total / chunkBits * chunkBits + total % chunkBits = total :=
    Nat.div_add_mod' total chunkBits
  have hbytes : Bytes.blockCount 8 total ≤ data.length := by
    unfold Bytes.blockCount
    omega
  have hfills : ∀ scan ∈ scans (chunkSizes total) data, Fills scan := by
    apply fills_scans_replicate
    rwa [htotal]
  obtain ⟨hinner, hlast⟩ := endState_scans (chunkSizes total) data
  refine ⟨by simp [length_chunkSizes], by simp [sum_chunkSizes], fun scan hscan => ?inner,
    fun scan hscan => ?last, fun scan hscan => ⟨hfills scan hscan, rxLength?_scans hscan⟩, ?payload⟩
  -- The sizes of the scans are those of the chunks, so what is known of a chunk is known of its
  -- scan.
  case inner =>
    have hbits : scan.bits ∈ (chunkSizes total).dropLast := by
      rw [← map_bits_scans (chunkSizes total) data, ← List.map_dropLast]
      exact List.mem_map_of_mem hscan
    exact ⟨mem_dropLast_chunkSizes hbits, hinner scan hscan⟩
  case last =>
    have hbits : scan.bits ∈ chunkSizes total := by
      rw [← map_bits_scans (chunkSizes total) data]
      exact List.mem_map_of_mem (List.mem_of_getLast? hscan)
    obtain ⟨hpos, hle⟩ := mem_chunkSizes hbits
    exact ⟨hpos, hle, hlast scan hscan⟩
  case payload => rw [flatMap_tx_scans hfills, scanned_chunkSizes hbytes]

end Device.Sram

/-! ## The load -/

namespace Host

open Device.Sram (scans chunkSizes Streams)

variable {setting : Setting}

/-- The payload goes out in these scans and with no other call: the progress that is reported
between them is none. -/
theorem performs_stream (sizes : List Nat) (sent : Nat) (data : Bytes) :
    Performs setting (Device.Sram.stream sizes sent data)
      ((scans sizes data).map .shiftDr) := by
  induction sizes generalizing sent data with
  | nil => exact performs_pure _
  | cons bits sizes ih =>
    exact (performs_shiftDr _).bind fun _ => (performs_progress _).bind fun _ => ih _ _

/-- The scan that sends the checksum of an image. -/
def checksumScan (image : Image) : Scan :=
  ⟨some (Bytes.ofWordLE image.checksum.toUInt32), none, 32, .runTestIdle⟩

/-- The calls that load an image. -/
def loadCalls (filter : LogFilter) (image : Image) (payload : List Scan) : List CableCall :=
  logCalls filter ++ sendCalls .configEnable ++ sendCalls .initAddress ++
    sendCalls .transferWrite ++ payload.map .shiftDr ++
    sendCalls .checksumStart ++ [.shiftDr (checksumScan image)] ++ sendCalls .checksumEnd ++
    sendCalls .configDisable ++ sendCalls .noop ++ logCalls filter ++ lookCalls

/-- Loading an image is a script. Only its outcome depends on the device. -/
theorem makes_loadSram (image : Image) :
    Makes setting (Device.Sram.load image)
      (loadCalls setting.filter image (scans (chunkSizes image.loadableBits) image.data)) := by
  -- The last status decides how the load ends, and leads to no further call.
  have hcheck : ∀ status : Status, Makes setting (if status.has .doneFinal then
      log .info "Load SRAM: DONE" else do
        log .error "Load SRAM: FAIL"
        throw (.writeFailed .sram)) [] := by
    intro status
    split
    · exact (performs_log _ _).makes
    · exact (performs_log _ _).finally fun _ => makes_throw _
  have hnote : Performs setting (log .info "Load SRAM") [] := performs_log _ _
  have hload := hnote.finally fun _ =>
    (performs_logStatus "before write sram").finally fun _ =>
    (performs_send .configEnable).finally fun _ =>
    (performs_send .initAddress).finally fun _ =>
    (performs_send .transferWrite).finally fun _ =>
    (performs_reporting .loadSram image.loadableBits
      (performs_stream (chunkSizes image.loadableBits) 0 image.data)).finally fun _ =>
    (performs_send .checksumStart).finally fun _ =>
    (performs_shiftDr (checksumScan image)).finally fun _ =>
    (performs_send .checksumEnd).finally fun _ =>
    (performs_send .configDisable).finally fun _ =>
    (performs_send .noop).finally fun _ =>
    (performs_logStatus "after write sram").finally fun _ =>
    performs_readStatus.finally hcheck
  simpa [loadCalls, checksumScan, Device.Sram.load] using hload

/-- Over a cable that works, loading an image streams its payload exactly once. Between the
instruction that begins the transfer and the one that begins the checksum, the cable is called for
the scans of the payload and for nothing else, and the checksum follows as one word. -/
theorem run_loadSram {σ : Type} (cable : Cable σ) (filter : LogFilter) (image : Image) (device : σ)
    (hworks : ∀ exchange ∈ (run cable filter (Device.Sram.load image) device).exchanges,
      Exchange.failure? exchange = none) :
    ∃ payload, Streams payload (min image.bitLength (8 * image.data.length)) image.data ∧
      callsOf (run cable filter (Device.Sram.load image) device).exchanges =
        loadCalls filter image payload := by
  obtain ⟨hruns, hgives⟩ := runs_gives_run cable filter (Device.Sram.load image) device
  have htotal : image.loadableBits = min image.bitLength (8 * image.data.length) := by
    rw [Image.loadableBits, Nat.mul_comm]
  rw [← htotal]
  refine ⟨_, Device.Sram.streams_scans ?_,
    (makes_loadSram image hruns (Setting.holds_of_gives hgives hworks)).calls_eq⟩
  rw [htotal]
  exact Nat.min_le_right ..

/-- A full scan, and five more bits of a byte that is announced only in part. -/
theorem run_loadSram_partial_byte :
    let image : Image :=
      { kind := .bitstream, data := List.replicate 65537 0xA5, bitLength := 524293,
        header? := fun _ => none, checksum := 0 }
    (∀ exchange ∈ (run Simulator.cable none (Device.Sram.load image) (.powerUp {})).exchanges,
      Exchange.failure? exchange = none) ∧
      ∃ payload, Streams payload 524293 image.data ∧ payload.length = 2 ∧
        callsOf (run Simulator.cable none (Device.Sram.load image) (.powerUp {})).exchanges =
          loadCalls none image payload := by
  intro image
  have hworks := Simulator.works_run none (Device.Sram.load image) (.powerUp {})
  obtain ⟨payload, hstreams, hcalls⟩ := run_loadSram Simulator.cable none image _ hworks
  have hlength : image.data.length = 65537 := List.length_replicate
  have htotal : min image.bitLength (8 * image.data.length) = 524293 := by
    rw [hlength]
    exact Nat.min_eq_left (by decide)
  rw [htotal] at hstreams
  exact ⟨hworks, payload, hstreams, hstreams.length_eq, hcalls⟩

end Host

end FpgaProgrammer
