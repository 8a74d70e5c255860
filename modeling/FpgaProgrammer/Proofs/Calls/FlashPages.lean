import Mathlib.Data.List.Basic
import FpgaProgrammer.Proofs.Calls.Script
import FpgaProgrammer.Proofs.Programming.FlashWrite

/-!
# The calls that write pages

Over a cable whose clock frequency is known, sending a page of the embedded flash is a script: the
instructions that begin a page, a scan for its address, and one for each of its 64 words, each
followed by a wait.

* `Host.pageCalls` — the calls that send a page to an address.
* `performs_writePages` — pages are sent one after the other.
* `Runs.of_writeFlash` — a write looks at the status for the log, sends its pages and then no more.
-/

namespace FpgaProgrammer.Host

open Device.EmbeddedFlash (Delays pageSize pageContent pageAddress)

variable {setting : Setting} {frequency : UInt32}

/-! ## One page -/

/-- The calls that scan a word, and wait for so many microseconds. -/
def wordCalls (frequency : UInt32) (word : Bytes) (microseconds : Nat) : List CableCall :=
  .shiftDr ⟨some word, none, 32, .runTestIdle⟩ :: idleCalls frequency microseconds

/-- The calls that send a page to an address. The words of the page have their bytes reversed, and
only the page at address 0 needs no pause before it. -/
def pageCalls (frequency : UInt32) (delays : Delays) (address : UInt32) (page : Bytes) :
    List CableCall :=
  (if address = 0 then [] else idleCalls frequency 16) ++
    sendCalls .configEnable ++ sendCalls .noop ++ sendCalls .flashProgram ++
    wordCalls frequency (Bytes.ofWordLE address) 16 ++
    (List.range 64).flatMap (fun index =>
      wordCalls frequency ((page.drop (4 * index)).take 4).reverse delays.word) ++
    idleCalls frequency delays.page

/-- Each word of a page is one scan of its bytes in reverse, followed by the wait for it to be
stored. -/
theorem performs_writeWords (hfrequency : setting.frequency? = some frequency) (delay : Nat)
    (words : List Bytes) :
    Performs setting (Device.EmbeddedFlash.writeWords delay words)
      (words.flatMap fun word => wordCalls frequency word.reverse delay) := by
  induction words with
  | nil => exact performs_pure _
  | cons word words ih =>
    exact (performs_shiftDr _).bind fun _ => (performs_idle hfrequency delay).bind fun _ => ih

/-- A page is sent with its content, whatever the data was. -/
theorem performs_writePage (hfrequency : setting.frequency? = some frequency) (delays : Delays)
    (address : UInt32) (data : Bytes) :
    Performs setting (Device.EmbeddedFlash.writePage delays address data)
      (pageCalls frequency delays address (pageContent address data)) := by
  -- Whatever is written, a page has 256 bytes, and so it has 64 words.
  have hblocks : Bytes.blocks 4 (pageContent address data) =
      (List.range 64).map fun index => ((pageContent address data).drop (4 * index)).take 4 := by
    rw [Bytes.blocks_eq_map, Simulator.length_pageContent]
    rfl
  have hwords := performs_writeWords hfrequency delays.word
    ((List.range 64).map fun index => ((pageContent address data).drop (4 * index)).take 4)
  rw [List.flatMap_map] at hwords
  have hopen : Performs setting (Device.send .configEnable) (sendCalls .configEnable) :=
    performs_send _
  have hpage := hopen.bind fun _ =>
    (performs_send .noop).bind fun _ =>
    (performs_send .flashProgram).bind fun _ =>
    (performs_shiftDr ⟨some (Bytes.ofWordLE address), none, 32, .runTestIdle⟩).bind fun _ =>
    (performs_idle hfrequency 16).bind fun _ => hwords.bind fun _ =>
    performs_idle hfrequency delays.page
  unfold Device.EmbeddedFlash.writePage pageCalls
  rw [hblocks]
  -- Only the pause before the page depends on the address.
  by_cases hzero : address = 0
  · simpa [hzero, wordCalls] using hpage
  · simpa [hzero, wordCalls] using (performs_idle hfrequency 16).bind fun _ => hpage

/-! ## A write -/

/-- Pages are sent one after the other, each to its own address. -/
theorem performs_writePages (hfrequency : setting.frequency? = some frequency) (delays : Delays)
    (base : UInt32) (block : Nat → Bytes) (index count : Nat) :
    Performs setting
      (Device.EmbeddedFlash.writePages delays base ((List.range' index count).map block) index)
      ((List.range' index count).flatMap fun i => pageCalls frequency delays (pageAddress base i)
        (pageContent (pageAddress base i) (block i))) := by
  induction count generalizing index with
  | zero => exact performs_pure _
  | succ count ih =>
    exact (performs_writePage hfrequency delays _ _).bind fun _ =>
      (performs_progress _).bind fun _ => ih (index + 1)

/-- The pages of an image are sent with their content, each to its own address. -/
theorem performs_writeImage (hfrequency : setting.frequency? = some frequency) (delays : Delays)
    {base : UInt32} {image : Image}
    (hfit : ∀ i < Bytes.blockCount 256 image.storableBytes.length,
      base.toNat + 64 * i < 2 ^ 32) :
    Performs setting
      (Device.EmbeddedFlash.writePages delays base (Bytes.blocks pageSize image.storableBytes) 0)
      ((List.range (Bytes.blockCount 256 image.storableBytes.length)).flatMap fun i =>
        pageCalls frequency delays (base.toNat + 64 * i).toUInt32
          (Simulator.imagePage base image.storableBytes i)) := by
  have hpages := performs_writePages hfrequency delays base
    (fun i => (image.storableBytes.drop (pageSize * i)).take pageSize) 0
    (Bytes.blockCount pageSize image.storableBytes.length)
  rw [← List.range_eq_range', ← Bytes.blocks_eq_map] at hpages
  -- Within the address space, the address and the content of a page are what they should be.
  have hcalls : ∀ i ∈ List.range (Bytes.blockCount 256 image.storableBytes.length),
      pageCalls frequency delays (base.toNat + 64 * i).toUInt32
        (Simulator.imagePage base image.storableBytes i) =
      pageCalls frequency delays (pageAddress base i) (pageContent (pageAddress base i)
        ((image.storableBytes.drop (pageSize * i)).take pageSize)) := by
    intro i hi
    have hinside := hfit i (List.mem_range.mp hi)
    have haddress : pageAddress base i = (base.toNat + 64 * i).toUInt32 := by
      apply UInt32.toNat_inj.mp
      rw [Simulator.toNat_pageAddress hinside, UInt32.toNat_ofNat', Nat.mod_eq_of_lt hinside]
    rw [Simulator.pageContent_eq hinside, haddress]
  rw [List.flatMap_congr hcalls]
  exact hpages

/-- A write looks at the status for the log and sends its pages. What follows begins no page. -/
theorem Runs.of_writeFlash (hfrequency : setting.frequency? = some frequency) {profile : Profile}
    {limit : Nat} {base : UInt32} {image : Image} {result : Except Error Unit}
    {exchanges : List (Exchange Request Request.Answer)}
    (hruns : Runs (Device.EmbeddedFlash.write profile limit base image) exchanges result)
    (hholds : setting.Holds exchanges)
    (hfit : ∀ i < Bytes.blockCount 256 image.storableBytes.length,
      base.toNat + 64 * i < 2 ^ 32) :
    ∃ rest, callsOf exchanges = logCalls setting.filter ++
        (List.range (Bytes.blockCount 256 image.storableBytes.length)).flatMap (fun i =>
          pageCalls frequency (Device.EmbeddedFlash.delays profile)
            (base.toNat + 64 * i).toUInt32 (Simulator.imagePage base image.storableBytes i)) ++
        rest ∧
      ∀ call ∈ rest, ∀ instruction, (Request.cable call).instruction? = some instruction →
        instruction ∈ [.configDisable, .noop, .readStatus, .reload] := by
  have hpages := performs_reporting .writeFlash image.storableBytes.length
    (performs_writeImage hfrequency (Device.EmbeddedFlash.delays profile) hfit)
  rw [writeFlash_eq] at hruns
  -- The cable is called by the look at the status and by the pages. The rest need not succeed.
  obtain ⟨_, note, _, rfl, hnote, -, hruns, hholds⟩ := (performs_log _ _).rest hruns hholds
  obtain ⟨_, log, _, rfl, hlog, -, hruns, hholds⟩ := (performs_logStatus _).rest hruns hholds
  obtain ⟨_, pages, rest, rfl, hsent, -, hruns, -⟩ := hpages.rest hruns hholds
  refine ⟨callsOf rest, ?_, fun call hcall instruction hinstruction => ?_⟩
  · simp [hnote.calls_eq, hlog.calls_eq, hsent.calls_eq]
  · exact (sends_finishWrite limit).mem_of_call hruns hcall hinstruction

end FpgaProgrammer.Host
