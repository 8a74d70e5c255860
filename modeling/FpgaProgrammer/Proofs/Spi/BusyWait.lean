import FpgaProgrammer.Proofs.Nor.StatusRead
import FpgaProgrammer.Proofs.Spi.Polling
import FpgaProgrammer.Proofs.Spi.ShiftRegister

/-!
# Waiting for a write to end

A flash counts a running write down by the status bytes that are read. When pins are toggled, a poll
reads one with each sample; a scan reads two, of which the first one is the sample. So the number of
samples that a write takes is another one with each encoding.

* `ends_watch_countdown`: a poll of anything that is counted down with each sample.
* `ends_await_bitBang`, `ends_await_shiftRegister`: the two encodings, over a flash in any state.
* `await_idle`: when a wait succeeds, and what is left of the write.
-/

namespace FpgaProgrammer

/-- The poll that waits until no write is running. -/
def SpiEncoding.idlePoll (timeout : UInt32) (verbose : Bool) : SpiEncoding.Poll where
  command := 0x05
  mask := Nor.busyBit
  expected := 0
  timeout := timeout
  verbose := verbose

namespace Simulator

open SpiEncoding (Poll idlePoll BitBang.clockByte)

variable (filter : LogFilter) {sim now : Simulator} {pins : SpiPins} {timeout : UInt32}
  {verbose : Bool}

/-- Each sample sees whether a count has come to zero, and brings it `step` nearer to it. `holds`
says how the device is at a count. A poll succeeds if the count is zero before the last sample that
may be taken. Wherever it stops, nothing more is left of the count than after all samples. -/
theorem ends_watch_countdown (poll : Poll) {sample : Host UInt8} {step : Nat}
    (holds : Nat → Simulator → Prop)
    (hsample : ∀ {count now}, holds count now → ∃ value after,
      Ends filter sample now (.ok value) after ∧ (poll.Awaits value ↔ count = 0) ∧
        holds (count - step) after)
    (left taken : Nat) {count : Nat} (h : holds count now) :
    ∃ after, Ends filter (poll.watch sample left taken) now
        (if count ≤ step * left then .ok () else .error .spiTimeout) after ∧
      holds (count - step * (left + 1)) after := by
  -- On the samples that are left. A count of zero stays zero, so a poll that stops early leaves as
  -- much as one that goes on.
  induction left generalizing now taken count with
  | zero =>
    obtain ⟨value, after, hends, hawaits, hafter⟩ := hsample h
    rw [Nat.zero_add, Nat.mul_one, Nat.mul_zero]
    refine ⟨after, ?_, hafter⟩
    by_cases hzero : count = 0
    · rw [if_pos (Nat.le_of_eq hzero)]
      exact ends_watch_found hends (beq_iff_eq.mpr (hawaits.mpr hzero))
    · rw [if_neg fun hle => hzero (Nat.le_zero.mp hle)]
      exact ends_watch_missed hends fun hfound => hzero (hawaits.mp (beq_iff_eq.mp hfound))
  | succ left ih =>
    obtain ⟨value, after, hends, hawaits, hafter⟩ := hsample h
    by_cases hzero : count = 0
    · subst hzero
      rw [Nat.zero_sub] at hafter ⊢
      rw [if_pos (Nat.zero_le _)]
      exact ⟨after, ends_watch_found hends (beq_iff_eq.mpr (hawaits.mpr rfl)), hafter⟩
    · obtain ⟨last, hrest, hlast⟩ := ih (taken + 1) hafter
      have hleft : count - step - step * (left + 1) = count - step * (left + 1 + 1) := by
        rw [Nat.mul_succ step (left + 1), Nat.sub_sub, Nat.add_comm step]
      have hcount : count - step ≤ step * left ↔ count ≤ step * (left + 1) := by
        rw [Nat.mul_succ]
        omega
      rw [hleft] at hlast
      rw [if_congr hcount rfl rfl] at hrest
      exact ⟨last, ends_watch_next hends (fun hfound => hzero (hawaits.mp (beq_iff_eq.mp hfound)))
        hrest, hlast⟩

/-- The sample that is a status says whether a write is running. -/
theorem awaits_status {flash : Nor.Flash} (h : flash.Guarded) :
    (idlePoll timeout verbose).Awaits flash.status ↔ flash.busy = 0 :=
  Nor.Flash.status_and_busyBit h

/-! ## Toggling pins -/

/-- The device within a transaction that reads the status. -/
def ReadingStatus (sim : Simulator) (busy : Nat) (now : Simulator) : Prop :=
  ∃ flash : Nor.Flash, sim.flash.CountedTo busy flash ∧ flash.received[0]? = some 0x05 ∧
    Exchanging sim flash [] now

/-- One status byte is read with each sample. -/
theorem ReadingStatus.sample (hattached : Attached pins sim) (hguarded : sim.flash.Guarded)
    {busy : Nat} (h : ReadingStatus sim busy now) :
    ∃ value after, Ends filter (BitBang.clockByte pins 0) now (.ok value) after ∧
      ((idlePoll timeout verbose).Awaits value ↔ busy = 0) ∧
      ReadingStatus sim (busy - 1) after := by
  obtain ⟨_, ⟨received, rfl⟩, hfirst, hexchanging⟩ := h
  -- The status that comes back is the one from before this byte is counted.
  obtain ⟨after, hends, hafter⟩ := ends_clockByte filter hattached hexchanging 0
  rw [Nor.Flash.driven_of_status hfirst] at hends
  rw [Nor.Flash.receive_of_status hfirst] at hafter
  exact ⟨_, after, hends, awaits_status (hguarded.of_eq rfl), _, ⟨_, rfl⟩,
    Nor.Flash.getElem?_push_of_status hfirst 0, hafter⟩

/-- When pins are toggled, a wait reads a status byte with each sample. -/
theorem ends_await_bitBang (hattached : Attached pins sim)
    (hdeselected : sim.bus.selected = false) (hguarded : sim.flash.Guarded) :
    ∃ after, Ends filter (SpiEncoding.await (.bitBang pins) (idlePoll timeout verbose)) sim
        (if sim.flash.busy ≤ 1 * (timeout.toNat - 1) then .ok () else .error .spiTimeout) after ∧
      sim.flash.CountedTo (sim.flash.busy - 1 * (timeout.toNat - 1 + 1)) after.flash := by
  -- What happens between selecting the chip and releasing it.
  have hwatch : ∀ {commanded},
      Exchanging sim (sim.flash.select.receive (idlePoll timeout verbose).command) [] commanded →
      ∃ polled flash, Ends filter
          ((idlePoll timeout verbose).watch (BitBang.clockByte pins 0) (timeout.toNat - 1) 0)
          commanded
          (if sim.flash.busy ≤ 1 * (timeout.toNat - 1) then .ok () else .error .spiTimeout)
          polled ∧ Exchanging sim flash [] polled ∧
        (sim.flash.CountedTo (sim.flash.busy - 1 * (timeout.toNat - 1 + 1)) flash ∧
          flash.received[0]? = some 0x05) := by
    intro commanded hcommanded
    obtain ⟨polled, hends, flash, hcounted, hfirst, hpolled⟩ :=
      ends_watch_countdown filter (idlePoll timeout verbose) (ReadingStatus sim)
        (fun h => h.sample filter hattached hguarded) (timeout.toNat - 1) 0
        ⟨_, ⟨_, rfl⟩, rfl, hcommanded⟩
    exact ⟨polled, flash, hends, hpolled, hcounted, hfirst⟩
  obtain ⟨after, _, hends, hreleased, ⟨received, rfl⟩, hfirst⟩ :=
    ends_await_of_watch filter hattached hdeselected hwatch
  have hflash : after.flash = Nor.Flash.release _ :=
    read_lasting hreleased.steady.lasting_eq Simulator.flash fun _ => rfl
  exact ⟨after, hends, _, hflash.trans (Nor.Flash.release_of_status hfirst)⟩

/-! ## Scanning -/

/-- A sample is a transaction of two bytes, of whose answer the second byte is kept. -/
theorem sample_eq (command : UInt8) : SpiEncoding.ShiftRegister.sample command =
    (SpiEncoding.ShiftRegister.transact [command, 0] true >>= fun received =>
      pure (received.getD 1 0)) := by
  have hzero : Bytes.reverseBits 0 = 0 := by decide
  have htx : Bytes.fit 3 ([command, 0].map Bytes.reverseBits) =
      [Bytes.reverseBits command, 0, 0] := by
    rw [show Bytes.fit 3 _ = _ from fit_map_reverseBits [command, 0]]
    simp [hzero]
  simp only [SpiEncoding.ShiftRegister.sample, SpiEncoding.ShiftRegister.transact, if_pos,
    bind_assoc, pure_bind, List.length_cons, List.length_nil, Nat.zero_add, Nat.reduceAdd, htx]

/-- The device between two scans. -/
def BetweenScans (sim : Simulator) (busy : Nat) (now : Simulator) : Prop :=
  ∃ flash : Nor.Flash, sim.flash.CountedTo busy flash ∧ Traffic (sim.holding flash) now

/-- Two status bytes are read with each sample. -/
theorem BetweenScans.sample (hguarded : sim.flash.Guarded) {busy : Nat}
    (h : BetweenScans sim busy now) :
    ∃ value after, Ends filter (SpiEncoding.ShiftRegister.sample 0x05) now (.ok value) after ∧
      ((idlePoll timeout verbose).Awaits value ↔ busy = 0) ∧
      BetweenScans sim (busy - 2) after := by
  obtain ⟨_, ⟨received, rfl⟩, htraffic⟩ := h
  have hflash : now.flash = { sim.flash with busy, received } :=
    read_lasting htraffic.lasting_eq Simulator.flash fun _ => rfl
  obtain ⟨after, htransact, hafter⟩ := ends_transact filter now [0x05, 0] true
  -- Of the two status bytes, the first one is the sample.
  obtain ⟨received', hcounted⟩ := Nor.Flash.countedTo_transact now.flash
  rw [if_pos rfl, Nor.Flash.answers_status] at htransact
  rw [clocked, if_pos rfl, List.cons_append, List.singleton_append, hcounted, hflash] at hafter
  refine ⟨now.flash.status, after, ?_, ?_, _, ⟨received', rfl⟩, ?_⟩
  · rw [sample_eq]
    exact htransact.bind (ends_pure ..)
  · rw [hflash]
    exact awaits_status (hguarded.of_eq rfl)
  · exact (htraffic.map (holding · { sim.flash with busy := busy - 2, received := received' })
      (fun _ => rfl) fun _ => ⟨rfl, rfl⟩).trans hafter

/-- When the data register is connected to the flash, a wait reads two status bytes with each
sample. -/
theorem ends_await_shiftRegister (hguarded : sim.flash.Guarded) :
    ∃ after, Ends filter (SpiEncoding.await .shiftRegister (idlePoll timeout verbose)) sim
        (if sim.flash.busy ≤ 2 * (timeout.toNat - 1) then .ok () else .error .spiTimeout) after ∧
      sim.flash.CountedTo (sim.flash.busy - 2 * (timeout.toNat - 1 + 1)) after.flash := by
  obtain ⟨after, hwatch, flash, hcounted, htraffic⟩ :=
    ends_watch_countdown filter (idlePoll timeout verbose) (BetweenScans sim)
      (fun h => h.sample filter hguarded) (timeout.toNat - 1) 0 ⟨sim.flash, ⟨_, rfl⟩, .refl sim⟩
  have hflash : after.flash = flash :=
    read_lasting htraffic.lasting_eq Simulator.flash fun _ => rfl
  exact ⟨after, hwatch, hflash ▸ hcounted⟩

/-! ## Waits -/

/-- A wait that succeeds exactly if the timeout is long enough. It then leaves the flash idle, and
else so many status bytes before the end of the write. Nothing that the flash stores is changed. -/
structure Waited (flash : Nor.Flash) (longEnough : Prop) (left : Nat)
    (outcome : Host.Outcome Simulator Unit) : Prop where
  ok_iff : outcome.result = .ok () ↔ longEnough
  fails : outcome.result ≠ .ok () → outcome.result = .error .spiTimeout
  idle : outcome.result = .ok () → outcome.device.flash.isBusy = false
  busy_eq : outcome.result = .error .spiTimeout → outcome.device.flash.busy = left
  memory_eq : outcome.device.flash.memory = flash.memory
  writeEnabled_eq : outcome.device.flash.writeEnabled = flash.writeEnabled
  protection_eq : outcome.device.flash.protection = flash.protection

variable {filter} in
/-- A wait with so many samples, each of which reads so many status bytes. -/
theorem Ends.waited {program : Host Unit} {after : Simulator} {step samples remaining : Nat}
    {longEnough : Prop}
    (hends : Ends filter program sim
      (if sim.flash.busy ≤ step * samples then .ok () else .error .spiTimeout) after)
    (hcounted : sim.flash.CountedTo (sim.flash.busy - step * (samples + 1)) after.flash)
    (hlong : sim.flash.busy ≤ step * samples ↔ longEnough)
    (hremaining : sim.flash.busy - step * (samples + 1) = remaining) :
    Waited sim.flash longEnough remaining (Host.run cable filter program sim) := by
  obtain ⟨hresult, rfl⟩ := hends.run_eq
  obtain ⟨received, hflash⟩ := hcounted
  rw [hremaining] at hflash
  have hok : (Host.run cable filter program sim).result = .ok () ↔
      sim.flash.busy ≤ step * samples := by
    rw [hresult]
    split <;> simp_all
  refine ⟨hok.trans hlong, fun hnot => ?_, fun hsucceeds => ?_, fun _ => ?_, ?_, ?_, ?_⟩
  · rw [hresult, if_neg (hnot ∘ hok.mpr)]
  · -- A write that takes no more than all samples but the last is over at the last one.
    have hnone : remaining = 0 := by
      rw [← hremaining]
      exact Nat.sub_eq_zero_of_le ((hok.mp hsucceeds).trans (Nat.mul_le_mul_left _ (Nat.le_succ _)))
    rw [hflash, hnone]
    rfl
  all_goals rw [hflash]

/-- A wait for the end of a write succeeds exactly if its timeout is longer than the write takes:
one sample for each status byte that is left, or one for two of them if the data register is
connected to the flash, and one that sees the end. -/
theorem await_idle {config : Nor.Config} {history : List Nor.Flash.Call}
    (hflash : sim.flash = (Nor.Flash.powerUp config).calls history) (timeout : UInt32)
    (verbose : Bool) :
    let busy := sim.flash.busy
    let limit := max 1 timeout.toNat
    (∀ pins, sim.profile.spi = .bitBang pins → sim.ir = Instruction.spiBoundaryScan.opcode →
      sim.bus.selected = false →
      Waited sim.flash (busy + 1 ≤ limit) (busy - limit)
        (Host.run cable filter ((SpiEncoding.bitBang pins).await (idlePoll timeout verbose)) sim)) ∧
    Waited sim.flash ((busy + 1) / 2 + 1 ≤ limit) (busy - 2 * limit)
      (Host.run cable filter (SpiEncoding.shiftRegister.await (idlePoll timeout verbose)) sim) := by
  intro busy limit
  have hguarded : sim.flash.Guarded := hflash ▸ Nor.Flash.guarded_calls config history
  have hlimit : limit = timeout.toNat - 1 + 1 := (idlePoll timeout verbose).limit_eq
  constructor
  · intro pins hspi hir hdeselected
    obtain ⟨after, hends, hcounted⟩ := ends_await_bitBang filter ⟨hspi, hir⟩ hdeselected hguarded
    refine hends.waited hcounted ?_ ?_ <;> omega
  · obtain ⟨after, hends, hcounted⟩ := ends_await_shiftRegister filter hguarded
    refine hends.waited hcounted ?_ ?_ <;> omega

/-- While a write takes three more status bytes, the third sample of one byte each comes too early,
and the third sample of two bytes each does not. -/
theorem await_idle_three :
    ∃ chip sim toggles scans,
      chip = (Nor.Flash.powerUp {}).calls
        [.select, .receive 0x06, .release, .select, .receive 0x60, .release] ∧
      sim = { powerUp {} with flash := chip, ir := Instruction.spiBoundaryScan.opcode } ∧
      toggles =
        Host.run cable none ((SpiEncoding.bitBang .standard).await (idlePoll 3 false)) sim ∧
      scans = Host.run cable none (SpiEncoding.shiftRegister.await (idlePoll 3 false)) sim ∧
      chip.busy = 3 ∧ toggles.result = .error .spiTimeout ∧ toggles.device.flash.busy = 0 ∧
      scans.result = .ok () ∧ scans.device.flash.isBusy = false := by
  refine ⟨_, _, _, _, rfl, rfl, rfl, rfl, rfl, ?_⟩
  generalize hchip : (Nor.Flash.powerUp {}).calls _ = chip
  have hbusy : chip.busy = 3 := by rw [← hchip]; rfl
  generalize hsim : ({ powerUp {} with flash := chip, ir := _ } : Simulator) = sim
  have hflash : sim.flash = chip := by rw [← hsim]
  have hspi : sim.profile.spi = .bitBang .standard := by rw [← hsim]; rfl
  have hir : sim.ir = Instruction.spiBoundaryScan.opcode := by rw [← hsim]
  have hdeselected : sim.bus.selected = false := by rw [← hsim]; rfl
  obtain ⟨htoggles, hscans⟩ := await_idle none (hflash.trans hchip.symm) 3 false
  have htoggles := htoggles .standard hspi hir hdeselected
  rw [hflash, hbusy] at htoggles hscans
  have htimeout := htoggles.fails fun hok => absurd (htoggles.ok_iff.mp hok) (by decide)
  have hok := hscans.ok_iff.mpr (by decide)
  exact ⟨htimeout, htoggles.busy_eq htimeout, hok, hscans.idle hok⟩

end Simulator

end FpgaProgrammer
