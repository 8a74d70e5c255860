import FpgaProgrammer.Proofs.Simulator.Checked
import FpgaProgrammer.Proofs.Simulator.Shut

/-!
# What always holds of the simulated device

A device that has only been called and given pages is `Coherent`: its two reports of a running
design agree, an SRAM erase is not reported as finished while it runs, a page that is being received
consists of whole words and is not full, and the SPI pins and the SPI flash are `Wired`, so that no
call is refused when every access is checked.

* `Reachable.coherent`: so it is in every state, whatever was called.
* `Stored.call`: pages that a call stores are full.
* `Shut.acts`: a device whose gate is stuck holds the pages it was given.
* `acts_coherent`: all of this of any sequence of actions.
-/

namespace FpgaProgrammer

/-- A page that is being received: whole words, not all of them, and none before the address. -/
structure PageWrite.Partial (write : PageWrite) : Prop where
  /-- Words are received as a whole. -/
  words : write.data.length % 4 = 0
  /-- The page is not full. -/
  short : write.data.length < Device.EmbeddedFlash.pageSize
  /-- The address comes first. -/
  addressed : write.address? = none → write.data = []

namespace Simulator

variable {sim after : Simulator}

/-! ## The SPI pins and the SPI flash -/

/-- The SPI flash is the configured one with its array whole, and fewer bits than a byte are waiting
at its pins. -/
structure Wired (sim : Simulator) : Prop where
  /-- The bits of a full byte are passed on. -/
  counted : sim.bus.bits.length < 8
  /-- The chip is the configured one. -/
  chip : sim.flash.config = sim.config.flash
  /-- Its array is whole. -/
  whole : sim.flash.Whole

namespace Wired

/-- It is the chip and its pins that matter. -/
theorem of_eq (h : sim.Wired) (hconfig : after.config = sim.config)
    (hflash : after.flash = sim.flash) (hbus : after.bus = sim.bus) : after.Wired :=
  ⟨hbus ▸ h.counted, by rw [hflash, hconfig, h.chip], hflash ▸ h.whole⟩

/-- Moving chip select leaves the chip whole, and drops the bits that are waiting. -/
theorem moveSelect (h : sim.Wired) (selected : Bool) : (sim.moveSelect selected).Wired := by
  have hbits := length_bits_moveSelect h.counted selected
  unfold Simulator.moveSelect at hbits ⊢
  split at hbits
  · rw [if_pos (by assumption)]
    exact ⟨hbits, h.chip, h.whole.of_eq rfl rfl⟩
  · rw [if_neg (by assumption)]
    split
    · exact ⟨h.counted, (Nor.Flash.config_release _).trans h.chip, h.whole.release⟩
    · exact h

/-- With an eighth bit a byte is passed on, so that fewer than eight are waiting again. -/
theorem clockIn (h : sim.Wired) (bit : Bool) : (sim.clockIn bit).Wired := by
  have hbits := length_bits_clockIn h.counted bit
  unfold Simulator.clockIn at hbits ⊢
  dsimp only at hbits ⊢
  split at hbits
  · rw [if_pos (by assumption)]
    obtain ⟨_, _, hreceived⟩ := Nor.Flash.receive_frame sim.flash
      (Bytes.ofBits (sim.bus.bits ++ [bit]))
    refine ⟨hbits, ?_, h.whole.receive _⟩
    rw [hreceived]
    exact h.chip
  · rw [if_neg (by assumption)]
    exact ⟨hbits, h.chip, h.whole⟩

/-- A vector at the pins leaves them wired. -/
theorem drivePins (h : sim.Wired) (vector : UInt8) : (sim.drivePins vector).2.Wired := by
  have hmoved := h.moveSelect (vector &&& sim.pins.select == 0)
  have hclocked := hmoved.clockIn (vector &&& sim.pins.dataIn != 0)
  unfold Simulator.drivePins
  dsimp only
  split
  · exact ⟨hclocked.counted, hclocked.chip, hclocked.whole⟩
  · exact ⟨hmoved.counted, hmoved.chip, hmoved.whole⟩

end Wired

/-! ## The two reports of a design -/

/-- A design is reported as valid exactly if the configuration is reported as completed: whatever
sets or clears one does so with the other. -/
theorem agrees_execute (instruction : Instruction) (h : sim.doneFinal = sim.gowinValid) :
    (sim.execute instruction).doneFinal = (sim.execute instruction).gowinValid := by
  cases instruction with
  | configDisable =>
    -- An erase that ends clears both flags or boots again, which sets or clears both.
    have hfinish : ∀ sim : Simulator, sim.doneFinal = sim.gowinValid →
        sim.finishErase.doneFinal = sim.finishErase.gowinValid := by
      intro sim h
      by_cases harmed : sim.eraseArmed = true
      · by_cases htakes : sim.EraseTakes
        · rw [finishErase_of_takes sim harmed htakes]
        · rw [finishErase_of_not_takes sim harmed htakes]
          rfl
      · rw [finishErase_of_unarmed sim (Bool.eq_false_of_not_eq_true harmed)]
        exact h
    dsimp only [execute, startLoaded]
    split
    · rfl
    · exact hfinish { sim with editMode := false } h
  | checksumEnd =>
    dsimp only [execute, latchChecksum]
    split <;> exact h
  | configEnable | flashErase | flashProgram =>
    dsimp only [execute]
    split <;> exact h
  | eraseSram =>
    dsimp only [execute]
    split
    · rfl
    · exact h
  | reload => rfl
  | _ => exact h

/-- No call sets one of the two reports of a running design without the other. -/
theorem agrees_call (call : CableCall) (h : sim.doneFinal = sim.gowinValid) :
    (cable call sim).2.doneFinal = (cable call sim).2.gowinValid := by
  cases call with
  | shiftIr data bits =>
    show (sim.instruct (data.headD 0)).doneFinal = (sim.instruct (data.headD 0)).gowinValid
    unfold instruct
    cases Instruction.ofOpcode? (data.headD 0) with
    | none => exact h
    | some instruction => exact agrees_execute instruction h
  | shiftDr given =>
    obtain ⟨_, _, _, _, _, _, _, _, _, hframe, -⟩ := scan_frame sim given
    show (sim.scan given).2.doneFinal = (sim.scan given).2.gowinValid
    rw [hframe]
    exact h
  | _ => exact h

/-- In every state the two reports of a running design agree. -/
theorem Reachable.agrees (h : sim.Reachable) : sim.doneFinal = sim.gowinValid := by
  induction h with
  | powerUp config => rfl
  | preload _ _ _ _ => rfl
  | call _ call ih => exact agrees_call call ih

/-! ## Coherent devices -/

/-- What always holds of a device. -/
structure Coherent (sim : Simulator) : Prop extends sim.Wired where
  /-- An SRAM erase is not reported as finished while it runs. -/
  unreported : sim.eraseCountdown?.isSome → sim.memoryErased = false
  /-- A page that is being received is partial. -/
  receiving : ∀ write, sim.pageWrite? = some write → write.Partial

/-- A device is coherent when it is powered up. -/
theorem coherent_powerUp (config : SimulatorConfig) : (powerUp config).Coherent :=
  ⟨⟨Nat.succ_pos 7, rfl, Nor.Flash.whole_powerUp config.flash⟩, nofun, nofun⟩

namespace Coherent

/-- It is the wiring, the SRAM erase and the page being received that matter. -/
theorem of_eq (h : sim.Coherent) (hwired : after.Wired)
    (hcountdown : after.eraseCountdown? = sim.eraseCountdown?)
    (herased : after.memoryErased = sim.memoryErased)
    (hpage : after.pageWrite? = sim.pageWrite?) : after.Coherent where
  toWired := hwired
  unreported := by
    rw [hcountdown, herased]
    exact h.unreported
  receiving := by
    rw [hpage]
    exact h.receiving

/-- A read of the status reports an erase as finished when it is not running any more. -/
theorem readStatus (h : sim.Coherent) : sim.readStatus.2.Coherent := by
  have hunreported := h.unreported
  unfold Simulator.readStatus
  dsimp only
  split
  · exact h
  · exact ⟨h.toWired.of_eq rfl rfl rfl, nofun, h.receiving⟩
  · rename_i hrunning
    rw [hrunning] at hunreported
    exact ⟨h.toWired.of_eq rfl rfl rfl, fun _ => hunreported rfl, h.receiving⟩

/-- A word brings the address of a page, or four of its bytes; with the last of them it is full. -/
theorem receivePageWord (h : sim.Coherent) (word : UInt32) :
    (sim.receivePageWord word).Coherent := by
  have hword : (Bytes.ofWordBE word).length = 4 := rfl
  unfold Simulator.receivePageWord
  split
  · exact h
  · -- The address has come, and nothing before it.
    rename_i data hpage
    have hdata : data = [] := (h.receiving _ hpage).addressed rfl
    refine ⟨h.toWired.of_eq rfl rfl rfl, h.unreported, fun write hwrite => ?_⟩
    obtain rfl := Option.some.inj hwrite
    subst hdata
    exact ⟨rfl, Nat.succ_pos 255, nofun⟩
  · rename_i address data hpage
    have hwords : data.length % 4 = 0 := (h.receiving _ hpage).words
    have hshort : data.length < 256 := (h.receiving _ hpage).short
    have hlength : (data ++ Bytes.ofWordBE word).length = data.length + 4 := by
      rw [List.length_append, hword]
    dsimp only
    split
    · exact ⟨h.toWired.of_eq rfl rfl rfl, h.unreported, nofun⟩
    · -- The page is still open, so another word fits.
      rename_i hopen
      have hopen : data.length + 4 ≠ 256 := hlength ▸ hopen
      refine ⟨h.toWired.of_eq rfl rfl rfl, h.unreported, fun write hwrite => ?_⟩
      obtain rfl := Option.some.inj hwrite
      have hwords' : (data ++ Bytes.ofWordBE word).length % 4 = 0 := by omega
      have hshort' : (data ++ Bytes.ofWordBE word).length < 256 := by omega
      exact ⟨hwords', hshort', nofun⟩

/-- A scan leaves a device coherent. -/
theorem scan (h : sim.Coherent) (given : Scan) : (sim.scan given).2.Coherent := by
  have hscanned := scanned_scan sim given
  generalize (sim.scan given).2 = after at hscanned ⊢
  cases hscanned with
  | unchanged => exact h
  | readStatus => exact h.readStatus
  | loaded | checksum => exact h.of_eq (h.toWired.of_eq rfl rfl rfl) rfl rfl rfl
  | pageWord => exact h.receivePageWord _
  | passed _ bytes =>
    exact h.of_eq ⟨h.counted, (Nor.Flash.config_transact ..).trans h.chip, h.whole.transact bytes⟩
      rfl rfl rfl
  | driven _ _ vector =>
    have hwired := h.toWired.drivePins vector
    obtain ⟨_, _, hpins⟩ := drivePins_frame sim vector
    rw [hpins] at hwired ⊢
    exact h.of_eq hwired rfl rfl rfl

/-- An instruction leaves a device coherent: a page that it begins is empty, and an erase that it
begins is not reported as finished. -/
theorem execute (h : sim.Coherent) (instruction : Instruction) :
    (sim.execute instruction).Coherent := by
  have hwired : ∀ {after : Simulator}, after.config = sim.config → after.flash = sim.flash →
      after.bus = sim.bus → after.Wired := h.toWired.of_eq
  cases instruction with
  | configDisable =>
    obtain ⟨_, _, _, _, _, _, _, hframe⟩ := configDisable_frame sim
    rw [hframe]
    exact h.of_eq (hwired rfl rfl rfl) rfl rfl rfl
  | eraseSram =>
    dsimp only [Simulator.execute]
    split
    · exact ⟨hwired rfl rfl rfl, fun _ => rfl, h.receiving⟩
    · exact h
  | transferDone => exact ⟨hwired rfl rfl rfl, fun _ => rfl, h.receiving⟩
  -- A page is begun without an address and without data.
  | flashProgram =>
    dsimp only [Simulator.execute]
    split
    · refine ⟨hwired rfl rfl rfl, h.unreported, fun write hwrite => ?_⟩
      obtain rfl := Option.some.inj hwrite
      exact ⟨rfl, by decide, fun _ => rfl⟩
    · exact h
  | checksumEnd =>
    dsimp only [Simulator.execute, latchChecksum]
    split <;> exact h.of_eq (hwired rfl rfl rfl) rfl rfl rfl
  | configEnable | flashErase =>
    dsimp only [Simulator.execute]
    split <;> exact h.of_eq (hwired rfl rfl rfl) rfl rfl rfl
  | _ => exact h.of_eq (hwired rfl rfl rfl) rfl rfl rfl

theorem call (h : sim.Coherent) (call : CableCall) : (cable call sim).2.Coherent := by
  refine kept_by_every_call ?_ (fun _ given h => h.scan given)
    (fun _ instruction h => h.execute instruction) call sim h
  exact fun _ _ _ _ _ _ _ _ h => h.of_eq (h.toWired.of_eq rfl rfl rfl) rfl rfl rfl

end Coherent

/-- A device is coherent in every state. -/
theorem Reachable.coherent (h : sim.Reachable) : sim.Coherent := by
  induction h with
  | powerUp config => exact coherent_powerUp config
  | preload _ _ _ ih => exact ih.of_eq (ih.toWired.of_eq rfl rfl rfl) rfl rfl rfl
  | call _ call ih => exact ih.call call

/-! ## The pages -/

/-- Every page is full, or was given. -/
def Stored (given : UInt32 → Bytes → Prop) (sim : Simulator) : Prop :=
  ∀ address page, sim.pages[address]? = some page →
    page.length = Device.EmbeddedFlash.pageSize ∨ given address page

namespace Stored

variable {given : UInt32 → Bytes → Prop}

/-- A scan stores a page only once it is full. -/
theorem scan (h : sim.Stored given) (scan : Scan) : (sim.scan scan).2.Stored given := by
  intro address page hpage
  rw [pages_scan] at hpage
  cases hcompleted : sim.completedPage? scan with
  | none =>
    rw [hcompleted] at hpage
    exact h address page hpage
  | some completed =>
    obtain ⟨target, full⟩ := completed
    rw [hcompleted, pagesWith, Std.ExtTreeMap.getElem?_insert] at hpage
    split at hpage
    · obtain rfl := Option.some.inj hpage
      exact .inl (length_completedPage? hcompleted)
    · exact h address page hpage

/-- Closing the gate leaves the pages alone or erases them all. -/
theorem execute (h : sim.Stored given) (instruction : Instruction) :
    (sim.execute instruction).Stored given := by
  cases instruction with
  | configDisable =>
    rcases pages_configDisable sim with hpages | hpages
    · intro address page hpage
      rw [hpages] at hpage
      exact h address page hpage
    · intro address page hpage
      rw [hpages, Std.ExtTreeMap.getElem?_empty] at hpage
      cases hpage
  | checksumEnd =>
    dsimp only [Simulator.execute, latchChecksum]
    split <;> exact h
  | configEnable | eraseSram | flashErase | flashProgram =>
    dsimp only [Simulator.execute]
    split <;> exact h
  | _ => exact h

/-- A call stores full pages only. -/
theorem call (h : sim.Stored given) (call : CableCall) : (cable call sim).2.Stored given := by
  exact kept_by_every_call (fun _ _ _ _ _ _ _ _ h => h) (fun _ scan h => h.scan scan)
    (fun _ instruction h => h.execute instruction) call sim h

end Stored

/-! ## Actions -/

/-- What can be done to a device. -/
inductive Action where
  /-- The cable is called. -/
  | call (call : CableCall)
  /-- A page is put into its flash. -/
  | preload (address : UInt32) (page : Bytes)
  deriving Repr, DecidableEq

/-- The device after an action. -/
def act (sim : Simulator) : Action → Simulator
  | .call call => (cable call sim).2
  | .preload address page => sim.preload address page

/-- The device after some actions. -/
def acts (sim : Simulator) (actions : List Action) : Simulator :=
  actions.foldl act sim

/-- The pages after an action that changes them only if it gives one. -/
def Action.given (pages : Std.ExtTreeMap UInt32 Bytes) : Action → Std.ExtTreeMap UInt32 Bytes
  | .call _ => pages
  | .preload address page => pages.insert address page

/-- Actions lead from reachable devices to reachable ones. -/
theorem Reachable.acts (h : sim.Reachable) (actions : List Action) :
    (sim.acts actions).Reachable := by
  induction actions generalizing sim with
  | nil => exact h
  | cons action actions ih =>
    cases action with
    | call call => exact ih (h.call call)
    | preload address page => exact ih (h.preload address page)

theorem config_acts (sim : Simulator) (actions : List Action) :
    (sim.acts actions).config = sim.config := by
  induction actions generalizing sim with
  | nil => rfl
  | cons action actions ih =>
    refine (ih (sim.act action)).trans ?_
    cases action with
    | call call => exact config_call call sim
    | preload => rfl

/-- Every page is full, or was given before or by one of the actions. -/
theorem Stored.acts {given : UInt32 → Bytes → Prop} (h : sim.Stored given)
    (actions : List Action) :
    (sim.acts actions).Stored fun address page =>
      given address page ∨ .preload address page ∈ actions := by
  -- On the actions: what the first one gives counts as given before the others.
  induction actions generalizing sim given with
  | nil => exact fun address page hpage => (h address page hpage).imp_right .inl
  | cons action actions ih =>
    have hact : (sim.act action).Stored fun address page =>
        given address page ∨ action = .preload address page := by
      cases action with
      | call call =>
        exact fun address page hpage => (h.call call address page hpage).imp_right .inl
      | preload target content =>
        intro address page hpage
        have hpage : (sim.pages.insert target content)[address]? = some page := hpage
        rw [Std.ExtTreeMap.getElem?_insert] at hpage
        split at hpage
        · rename_i hsame
          obtain rfl := Option.some.inj hpage
          obtain rfl := Std.LawfulEqCmp.compare_eq_iff_eq.mp hsame
          exact .inr (.inr rfl)
        · exact (h address page hpage).imp_right .inl
    intro address page hpage
    refine (ih hact address page hpage).imp_right fun hgiven => ?_
    -- A page was given before, by the first action, or by a later one.
    rcases hgiven with (hgiven | rfl) | hmem
    · exact .inl hgiven
    · exact .inr List.mem_cons_self
    · exact .inr (List.mem_cons_of_mem _ hmem)

/-- A device whose gate is stuck stays shut, and its pages are those it was given. -/
theorem Shut.acts (h : sim.Shut) (hstuck : sim.config.stuckEditMode = true)
    (actions : List Action) :
    (sim.acts actions).Shut ∧ (sim.acts actions).eraseLog = sim.eraseLog ∧
      ((sim.acts actions).sram = sim.sram ∨ (sim.acts actions).sram = []) ∧
      (sim.acts actions).pages = actions.foldl Action.given sim.pages := by
  induction actions generalizing sim with
  | nil => exact ⟨h, rfl, .inl rfl, rfl⟩
  | cons action actions ih =>
    cases action with
    | call call =>
      have hcall := h.call call fun _ => hstuck
      obtain ⟨hshut, hlog, hsram, hpages⟩ :=
        ih hcall.toShut ((congrArg _ (config_call call sim)).trans hstuck)
      refine ⟨hshut, hlog.trans hcall.eraseLog_eq, ?_, ?_⟩
      · exact hsram.elim (fun hkept => hcall.sram_eq.imp hkept.trans hkept.trans) .inr
      · exact hpages.trans (congrArg (actions.foldl Action.given) hcall.pages_eq)
    | preload address page => exact ih ⟨h.closed, h.unreceiving, h.unarmed⟩ hstuck

/-- Whatever is done to a device, no call is refused when every access is checked, and the state
agrees with itself; a device whose gate is stuck is never erased or loaded, and holds the pages it
was given. -/
theorem acts_coherent (config : SimulatorConfig) (actions : List Action) :
    let sim := (powerUp config).acts actions
    (∀ call, cable? call sim = some (call.held (cable call sim).1, (cable call sim).2)) ∧
    sim.doneFinal = sim.gowinValid ∧
    (sim.eraseCountdown?.isSome → sim.memoryErased = false) ∧
    (∀ write, sim.pageWrite? = some write → write.data.length % 4 = 0 ∧ write.data.length < 256 ∧
      (write.address? = none → write.data = [])) ∧
    (∀ address page, sim.pages[address]? = some page →
      page.length = 256 ∨ .preload address page ∈ actions) ∧
    sim.bus.bits.length < 8 ∧
    sim.flash.memory.size = config.flash.size ∧
    (∀ address, config.flash.size ≤ address → sim.flash.memory.cells[address]? = none) ∧
    (config.stuckEditMode = true →
      sim.editMode = false ∧ sim.eraseArmed = false ∧ sim.eraseLog = #[] ∧ sim.sram = [] ∧
        sim.pages = actions.foldl Action.given ∅) := by
  intro sim
  have hreachable : sim.Reachable := (Reachable.powerUp config).acts actions
  obtain ⟨⟨hbits, hchip, hwhole⟩, hunreported, hreceiving⟩ := hreachable.coherent
  have hsize : sim.flash.memory.size = config.flash.size := by
    rw [hwhole.size_eq, hchip, config_acts]
    rfl
  -- At power-up nothing is stored, so that only the actions can have given a page.
  have hpages : (powerUp config).Stored fun _ _ => False := by
    intro address page hpage
    have hpage : (∅ : Std.ExtTreeMap UInt32 Bytes)[address]? = some page := hpage
    rw [Std.ExtTreeMap.getElem?_empty] at hpage
    cases hpage
  refine ⟨cable?_eq hbits hwhole.bounded, hreachable.agrees, hunreported, ?_, ?_, hbits, hsize, ?_,
    ?_⟩
  · intro write hwrite
    obtain ⟨hwords, hshort, haddressed⟩ := hreceiving write hwrite
    exact ⟨hwords, hshort, haddressed⟩
  · intro address page hpage
    exact (hpages.acts actions address page hpage).imp_right (·.resolve_left id)
  · exact fun address haddress => hwhole.bounded address (hsize ▸ haddress)
  · intro hstuck
    have hshut : (powerUp config).Shut := ⟨rfl, rfl, rfl⟩
    obtain ⟨hshut, hlog, hsram, hpages⟩ := hshut.acts hstuck actions
    exact ⟨hshut.closed, hshut.unarmed, hlog, hsram.elim id id, hpages⟩

/-- A stuck device is told to open its gate and to receive a page, and is left in the middle of a
byte at the SPI pins: it holds the page it was given. -/
theorem acts_coherent_stuck :
    ∃ config actions sim, config = { idcode := 0x0100981B, stuckEditMode := true } ∧
      actions = [.preload 64 [1, 2, 3], .call (.shiftIr [0x15] 8), .call (.shiftIr [0x71] 8),
        .call (.shiftDr ⟨some [0, 0, 0, 0], none, 32, .runTestIdle⟩), .call (.shiftIr [0x3D] 8),
        .call (.shiftDr ⟨some [0], none, 8, .runTestIdle⟩),
        .call (.shiftDr ⟨some [0xFF], none, 8, .runTestIdle⟩)] ∧
      sim = (powerUp config).acts actions ∧ sim.editMode = false ∧
      sim.pages = Std.ExtTreeMap.insert ∅ 64 [1, 2, 3] ∧ sim.bus.bits.length < 8 ∧
      (cable? (.shiftDr ⟨none, some 3, 8, .shiftDr⟩) sim).isSome := by
  refine ⟨_, _, _, rfl, rfl, rfl, ?_⟩
  obtain ⟨hcall, -, -, -, -, hbits, -, -, hstuck⟩ :=
    acts_coherent { idcode := 0x0100981B, stuckEditMode := true }
      [.preload 64 [1, 2, 3], .call (.shiftIr [0x15] 8), .call (.shiftIr [0x71] 8),
        .call (.shiftDr ⟨some [0, 0, 0, 0], none, 32, .runTestIdle⟩), .call (.shiftIr [0x3D] 8),
        .call (.shiftDr ⟨some [0], none, 8, .runTestIdle⟩),
        .call (.shiftDr ⟨some [0xFF], none, 8, .runTestIdle⟩)]
  obtain ⟨hclosed, -, -, -, hpages⟩ := hstuck rfl
  exact ⟨hclosed, hpages, hbits, by rw [hcall]; rfl⟩

end Simulator

end FpgaProgrammer
