import FpgaProgrammer.Proofs.Simulator.Reachable

/-!
# Behind the closed gate

A scan loads SRAM only while the configuration gate is open. A page of the embedded flash is begun
only while it is open, but its words are taken afterwards too: the scan that brings the last word
stores the page, gate or no gate (`pages_scan`). So a closed gate protects the SRAM from scans, and
the pages from all scans but that one (`shiftDr_of_closed`); `shiftDr_of_closed_stores` is a device
that stores a page behind its closed gate.

A device is `Shut` if its gate is closed and nothing that was begun while it was open is left: no
page is being received and no erase is under way. Every call that does not open the gate leaves it
shut and its pages alone (`Shut.call`).
-/

namespace FpgaProgrammer

/-! ## Scans -/

/-- What a word makes of the page being received, if it completes it: the page with its address. -/
def PageWrite.completed? (write : PageWrite) (word : UInt32) : Option (UInt32 × Bytes) :=
  match write.address? with
  | none => none
  | some address =>
    let page := write.data ++ Bytes.ofWordBE word
    if page.length = Device.EmbeddedFlash.pageSize then some (address, page) else none

namespace Simulator

variable {sim after : Simulator}

/-- The page that a scan completes: it goes through the register for pages and brings the last word
of the one being received. -/
def completedPage? (sim : Simulator) (given : Scan) : Option (UInt32 × Bytes) :=
  if sim.ir = Instruction.flashProgram.opcode ∧ given.bits = 32 then
    sim.pageWrite?.bind fun write =>
      write.completed? (Bytes.wordLE (Bytes.fit 4 (given.tx?.getD [])))
  else
    none

/-- A page is completed when it is full. -/
theorem length_completedPage? {given : Scan} {address : UInt32} {page : Bytes}
    (h : sim.completedPage? given = some (address, page)) :
    page.length = Device.EmbeddedFlash.pageSize := by
  unfold completedPage? at h
  split at h
  · obtain ⟨write, -, hcompleted⟩ := Option.bind_eq_some_iff.mp h
    unfold PageWrite.completed? at hcompleted
    split at hcompleted
    · cases hcompleted
    · dsimp only at hcompleted
      split at hcompleted
      · cases hcompleted
        assumption
      · cases hcompleted
  · cases h

/-- The pages when a page may have been completed. -/
def pagesWith (sim : Simulator) : (completed? : Option (UInt32 × Bytes)) →
    Std.ExtTreeMap UInt32 Bytes
  | none => sim.pages
  | some (address, page) => sim.pages.insert address page

/-- A word changes the pages exactly if it completes the one being received. -/
theorem pages_receivePageWord (sim : Simulator) (word : UInt32) :
    (sim.receivePageWord word).pages =
      sim.pagesWith (sim.pageWrite?.bind fun write => write.completed? word) := by
  unfold receivePageWord PageWrite.completed?
  rcases sim.pageWrite? with _ | ⟨_ | address, data⟩
  · rfl
  · rfl
  · dsimp only [Option.bind_some]
    split <;> rfl

/-- A scan stores the page that it completes, and changes no other. -/
theorem pages_scan (sim : Simulator) (given : Scan) :
    (sim.scan given).2.pages = sim.pagesWith (sim.completedPage? given) := by
  -- Any other register completes no page.
  have hother : ∀ {instruction : Instruction}, sim.ir = instruction.opcode →
      instruction ≠ .flashProgram → sim.completedPage? given = none := by
    intro instruction hir hne
    refine if_neg fun h => hne ?_
    have hsame := congrArg Instruction.ofOpcode? (hir.symm.trans h.1)
    rw [Instruction.ofOpcode?_opcode, Instruction.ofOpcode?_opcode] at hsame
    exact Option.some.inj hsame
  have hscanned := scanned_scan sim given
  generalize (sim.scan given).2 = after at hscanned ⊢
  cases hscanned with
  | unchanged hpage =>
    have hnone : sim.completedPage? given = none :=
      if_neg fun h => hpage.elim (· h.1) (· h.2)
    rw [hnone]
    rfl
  | pageWord hir hbits => rw [pages_receivePageWord, completedPage?, if_pos ⟨hir, hbits⟩]
  | readStatus hir =>
    obtain ⟨_, _, hread, -⟩ := readStatus_frame sim
    rw [hread, hother hir (by decide)]
    rfl
  | driven hir _ vector =>
    obtain ⟨_, _, hpins⟩ := drivePins_frame sim vector
    rw [hpins, hother hir (by decide)]
    rfl
  | loaded hir | checksum hir | passed hir =>
    rw [hother hir (by decide)]
    rfl

/-- Only an open gate lets a scan load SRAM. -/
theorem sram_scan (h : sim.editMode = false) (given : Scan) :
    (sim.scan given).2.sram = sim.sram ∧ (sim.scan given).2.chunks = sim.chunks := by
  have hscanned := scanned_scan sim given
  generalize (sim.scan given).2 = after at hscanned ⊢
  cases hscanned with
  | loaded _ hopen => exact absurd (h.symm.trans hopen) Bool.false_ne_true
  | readStatus =>
    obtain ⟨_, _, hread, -⟩ := readStatus_frame sim
    rw [hread]
    exact ⟨rfl, rfl⟩
  | pageWord =>
    obtain ⟨_, _, hword⟩ := receivePageWord_frame sim _
    rw [hword]
    exact ⟨rfl, rfl⟩
  | driven _ _ vector =>
    obtain ⟨_, _, hpins⟩ := drivePins_frame sim vector
    rw [hpins]
    exact ⟨rfl, rfl⟩
  | _ => exact ⟨rfl, rfl⟩

/-- A scan begins no page. -/
theorem pageWrite_scan (h : sim.pageWrite? = none) (given : Scan) :
    (sim.scan given).2.pageWrite? = none := by
  have hscanned := scanned_scan sim given
  generalize (sim.scan given).2 = after at hscanned ⊢
  cases hscanned with
  | readStatus =>
    obtain ⟨_, _, hread, -⟩ := readStatus_frame sim
    rw [hread]
    exact h
  | pageWord =>
    unfold receivePageWord
    rw [h]
    exact h
  | driven _ _ vector =>
    obtain ⟨_, _, hpins⟩ := drivePins_frame sim vector
    rw [hpins]
    exact h
  | _ => exact h

/-! ## Shut devices -/

/-- The gate is closed, and nothing that was begun while it was open is left. -/
structure Shut (sim : Simulator) : Prop where
  /-- The gate is closed. -/
  closed : sim.editMode = false
  /-- No page is being received. -/
  unreceiving : sim.pageWrite? = none
  /-- No erase of the embedded flash is under way. -/
  unarmed : sim.eraseArmed = false

/-- The device `after` is shut and holds what `sim` held, but that what SRAM had loaded may have
been dropped. -/
structure StaysShut (sim after : Simulator) : Prop extends after.Shut where
  /-- The pages are the same. -/
  pages_eq : after.pages = sim.pages
  /-- The same attempts to erase them are logged. -/
  eraseLog_eq : after.eraseLog = sim.eraseLog
  /-- Nothing was loaded. -/
  sram_eq : after.sram = sim.sram ∨ after.sram = []

theorem Shut.refl (h : sim.Shut) : StaysShut sim sim :=
  ⟨h, rfl, rfl, .inl rfl⟩

/-- What stays shut in two steps stays shut in both together. -/
theorem StaysShut.trans {middle : Simulator} (h : StaysShut sim middle)
    (h' : StaysShut middle after) : StaysShut sim after where
  toShut := h'.toShut
  pages_eq := h'.pages_eq.trans h.pages_eq
  eraseLog_eq := h'.eraseLog_eq.trans h.eraseLog_eq
  sram_eq := h'.sram_eq.elim (fun hkept => hkept ▸ h.sram_eq) .inr

/-- Only opening the gate ends that. -/
theorem Shut.execute (h : sim.Shut) {instruction : Instruction}
    (hopen : instruction = .configEnable → sim.config.stuckEditMode = true) :
    StaysShut sim (sim.execute instruction) := by
  have hclosed : ¬sim.editMode = true := by rw [h.closed]; exact Bool.false_ne_true
  cases instruction with
  | configEnable =>
    dsimp only [Simulator.execute]
    rw [if_pos (hopen rfl)]
    exact h.refl
  -- No erase is under way that the closing of the gate could end.
  | configDisable =>
    have hfinish : Simulator.finishErase { sim with editMode := false } =
        { sim with editMode := false } := finishErase_of_unarmed _ h.unarmed
    dsimp only [Simulator.execute]
    rw [hfinish]
    unfold startLoaded
    split <;> exact ⟨⟨rfl, h.unreceiving, h.unarmed⟩, rfl, rfl, .inl rfl⟩
  | eraseSram | flashErase | flashProgram =>
    dsimp only [Simulator.execute]
    rw [if_neg hclosed]
    exact h.refl
  | initAddress => exact ⟨⟨h.closed, h.unreceiving, h.unarmed⟩, rfl, rfl, .inr rfl⟩
  | checksumEnd =>
    dsimp only [Simulator.execute, latchChecksum]
    split <;> exact ⟨⟨h.closed, h.unreceiving, h.unarmed⟩, rfl, rfl, .inl rfl⟩
  | transferDone | reload => exact ⟨⟨h.closed, h.unreceiving, h.unarmed⟩, rfl, rfl, .inl rfl⟩
  | _ => exact h.refl

/-- No scan changes what is behind a shut gate. -/
theorem Shut.scan (h : sim.Shut) (given : Scan) : StaysShut sim (sim.scan given).2 := by
  have hpages : (sim.scan given).2.pages = sim.pages := by
    -- Without a page being received, none can be completed.
    have hnone : sim.completedPage? given = none := by
      unfold completedPage?
      rw [h.unreceiving]
      split <;> rfl
    rw [pages_scan, hnone]
    rfl
  obtain ⟨_, _, _, _, _, _, _, _, _, hframe, -⟩ := scan_frame sim given
  refine ⟨⟨?_, pageWrite_scan h.unreceiving given, ?_⟩, hpages, ?_,
    .inl (sram_scan h.closed given).1⟩
  · rw [hframe]
    exact h.closed
  · rw [hframe]
    exact h.unarmed
  · rw [hframe]

/-- Neither does any call that does not open it. -/
theorem Shut.call (h : sim.Shut) (call : CableCall)
    (hopen : (Request.cable call).instruction? = some .configEnable →
      sim.config.stuckEditMode = true) : StaysShut sim (cable call sim).2 := by
  -- The state of the TAP controller does not count.
  have hmarks : ∀ {sim : Simulator} (after : Simulator) (_ : StaysShut sim after) tap,
      StaysShut sim { after with tap } := fun _ h _ =>
    ⟨⟨h.closed, h.unreceiving, h.unarmed⟩, h.pages_eq, h.eraseLog_eq, h.sram_eq⟩
  cases call with
  | shiftIr data bits =>
    refine hmarks (sim.instruct (data.headD 0)) ?_ .runTestIdle
    unfold instruct
    cases hcode : Instruction.ofOpcode? (data.headD 0) with
    | none => exact ⟨⟨h.closed, h.unreceiving, h.unarmed⟩, rfl, rfl, .inl rfl⟩
    | some instruction =>
      have hreceived : Shut
          { sim with ir := data.headD 0, history := sim.history.push (data.headD 0) } :=
        ⟨h.closed, h.unreceiving, h.unarmed⟩
      refine StaysShut.trans ⟨hreceived, rfl, rfl, .inl rfl⟩
        (hreceived.execute fun heq => hopen ?_)
      rw [← heq]
      exact hcode
  | shiftDr given => exact hmarks _ (h.scan given) given.endState
  | setState | toggleClock | setClockFrequency | sleep =>
    exact ⟨⟨h.closed, h.unreceiving, h.unarmed⟩, rfl, rfl, .inl rfl⟩
  | _ => exact h.refl

/-! ## A closed gate -/

/-- An erase of the embedded flash is under way only while the gate is open. -/
theorem Reachable.unarmed (h : sim.Reachable) : sim.editMode = false → sim.eraseArmed = false := by
  induction h with
  | powerUp config => exact fun _ => rfl
  | preload _ _ _ ih => exact ih
  | call _ call ih =>
    have hkept : ∀ sim : Simulator, (sim.editMode = false → sim.eraseArmed = false) →
        (cable call sim).2.editMode = false → (cable call sim).2.eraseArmed = false := by
      refine kept_by_every_call ?_ ?_ ?_ call
      · exact fun _ _ _ _ _ _ _ _ h => h
      · intro sim given h
        obtain ⟨_, _, _, _, _, _, _, _, _, hframe, -⟩ := scan_frame sim given
        rw [hframe]
        exact h
      · intro sim instruction h
        cases instruction with
        | configDisable => exact fun _ => eraseArmed_configDisable sim
        | configEnable =>
          dsimp only [Simulator.execute]
          split
          · exact h
          · exact nofun
        -- The instruction begins an erase only while the gate is open.
        | flashErase =>
          dsimp only [Simulator.execute]
          split
          · rename_i hopen
            exact fun hclosed => absurd (hclosed.symm.trans hopen) Bool.false_ne_true
          · exact h
        | eraseSram | flashProgram =>
          dsimp only [Simulator.execute]
          split <;> exact h
        | checksumEnd =>
          dsimp only [Simulator.execute, latchChecksum]
          split <;> exact h
        | _ => exact h
    exact hkept _ ih

/-- While the gate is closed, a scan changes neither the SRAM nor the list of what loaded it. It
changes the pages of the embedded flash only if it brings the last word of a page that was begun
while the gate was open, and then it stores that page and changes no other; a device on which no
page is being received stays shut. -/
theorem shiftDr_of_closed (h : sim.Reachable) (hclosed : sim.editMode = false) (given : Scan) :
    let after := (cable (.shiftDr given) sim).2
    after.sram = sim.sram ∧ after.chunks = sim.chunks ∧
      after.pages = sim.pagesWith (sim.completedPage? given) ∧
      (sim.pageWrite? = none → StaysShut sim after) := by
  obtain ⟨hsram, hchunks⟩ := sram_scan hclosed given
  exact ⟨hsram, hchunks, pages_scan sim given, fun hnone =>
    Shut.call ⟨hclosed, hnone, h.unarmed hclosed⟩ (.shiftDr given) nofun⟩

/-- With its gate closed again, a device with the SRAM selected loads nothing. -/
theorem shiftDr_of_closed_sram :
    ∃ sim given, sim = (powerUp {}).calls
        [.shiftIr [0x15] 8, .shiftIr [0x3A] 8, .shiftIr [0x17] 8] ∧
      given = ⟨some [0xAB], none, 8, .runTestIdle⟩ ∧ sim.Reachable ∧ sim.editMode = false ∧
      sim.pageWrite? = none ∧ (cable (.shiftDr given) sim).2.sram = [] ∧
      StaysShut sim (cable (.shiftDr given) sim).2 := by
  have hreachable : ((powerUp {}).calls
      [.shiftIr [0x15] 8, .shiftIr [0x3A] 8, .shiftIr [0x17] 8]).Reachable :=
    (Reachable.powerUp {}).calls _
  obtain ⟨hsram, -, -, hshut⟩ :=
    shiftDr_of_closed hreachable (by decide +kernel) ⟨some [0xAB], none, 8, .runTestIdle⟩
  exact ⟨_, _, rfl, rfl, hreachable, by decide +kernel, by decide +kernel,
    hsram.trans (by decide +kernel), hshut (by decide +kernel)⟩

/-- A page is begun and the gate closed. Selecting the register again brings back no page, but the
words of the one begun are still taken: behind the closed gate the last of them stores it. -/
theorem shiftDr_of_closed_stores :
    ∃ sim given, sim = (powerUp {}).calls
        ([.shiftIr [0x15] 8, .shiftIr [0x71] 8, .shiftIr [0x3A] 8, .shiftIr [0x71] 8] ++
          List.replicate 64 (.shiftDr given)) ∧
      given = ⟨some [0, 0, 0, 0], none, 32, .runTestIdle⟩ ∧ sim.Reachable ∧
      sim.editMode = false ∧ sim.pages[(0 : UInt32)]? = none ∧
      (cable (.shiftDr given) sim).2.pages[(0 : UInt32)]? = some (List.replicate 256 0) :=
  ⟨_, _, rfl, rfl, (Reachable.powerUp {}).calls _, by decide +kernel, by decide +kernel,
    by decide +kernel⟩

end Simulator

end FpgaProgrammer
