import FpgaProgrammer.Proofs.Instructions.SafeOrder
import FpgaProgrammer.Proofs.Instructions.WriteStages
import FpgaProgrammer.Simulator.Step

/-!
# The order in which a session sends instructions

Whatever a cable answers and wherever it fails, a session sends the instructions that destroy what a
memory holds only in the safe order, and reports a success only of an image whose every stage of
writing was closed by a running design.
-/

namespace FpgaProgrammer

variable {programming : Bool}

namespace Session

/-! ## Programming -/

/-- What a session does at the end sends none of the guarded instructions. -/
theorem upholds_close {P : List Event → Prop} (hkept : ∀ {allowed}, .flashErase ∉ allowed →
    KeptBy allowed P) (session : Session) (image : Image) (occasion : String) :
    Upholds (safeOrder programming) P (do
      let check ← session.verifyUsercode image
      Device.logStatus occasion
      pure check) fun _ => P := by
  refine (Upholds.unguarded (Host.sends_verifyUsercode _ _) (hkept (by decide)) (by decide)).bind
    fun check => ?_
  refine (Upholds.unguarded (Host.sends_logStatus _) (hkept (by decide)) (by decide)).bind
    fun _ => ?_
  exact .pure check

/-- A session loads the SRAM only once it has seen it erased, with the gate closed and no design
running. -/
theorem upholds_programSram (session : Session) (image : Image) :
    Upholds (safeOrder programming) Anything (session.programSram image) fun _ => SramCleared := by
  unfold Session.programSram
  extract_lets load
  have hload : ∀ u, Upholds (safeOrder programming) Anything (load u) fun _ => SramCleared := by
    intro _
    refine (upholds_eraseSram _).bind fun _ => (upholds_loadSram image).bind fun _ => ?_
    exact upholds_close (fun _ => keptBy_sramCleared) ..
  refine (Upholds.unguarded (Host.sends_logStatus _) keptBy_anything (by decide)).bind fun _ => ?_
  split
  · refine (Upholds.unguarded Host.sends_reload keptBy_anything (by decide)).bind fun _ => ?_
    refine (Upholds.silent (Host.sends_setState _) keptBy_anything).bind fun _ => ?_
    exact (upholds_toggleClock _).bind hload
  · exact hload ()

/-- The flash is erased only after a status was read that shows a device which is ready. -/
theorem upholds_programEmbeddedFlash (session : Session) (image : Image) :
    Upholds (safeOrder programming) Anything (session.programEmbeddedFlash image)
      fun _ => FlashCleared := by
  unfold Session.programEmbeddedFlash
  refine (Upholds.silent (Host.sends_setClockFrequency _) keptBy_anything).bind fun _ => ?_
  refine (Upholds.unguarded (Host.sends_send _) keptBy_anything (by decide)).bind fun _ => ?_
  refine (Upholds.unguarded (Host.sends_sendOpcode _) keptBy_anything (by decide)).bind fun _ => ?_
  refine (Upholds.silent (Host.sends_setState _) keptBy_anything).bind fun _ => ?_
  refine (upholds_readStatus keptBy_anything fun _ _ => trivial).bind fun status => ?_
  -- The status has been read. Whether it shows a device that is ready decides what is done.
  extract_lets close warn work
  have hclose : ∀ u, Upholds (safeOrder programming) FlashCleared (close u) fun _ => FlashCleared :=
    fun _ => upholds_close keptBy_flashCleared ..
  have hwarn : ∀ u, Upholds (safeOrder programming) FlashCleared (warn u)
      fun _ => FlashCleared := by
    intro _
    show Upholds _ _ (ite _ _ _) _
    split
    · exact (upholds_log _ _).bind hclose
    · exact hclose ()
  have hwork : ∀ u, Upholds (safeOrder programming) (ReadyIf programming) (work u)
      fun _ => FlashCleared := by
    intro _
    refine (upholds_eraseFlash _ _).bind fun _ => (upholds_writeFlash _ _ _ _).bind fun _ => ?_
    cases session.job.firmware? with
    | none => exact hwarn ()
    | some firmware => exact (upholds_writeFlash _ _ _ _).bind hwarn
  split
  · -- Nothing is done to a device that is not ready.
    refine (upholds_log _ _).bind fun _ => ?_
    refine (?_ : Upholds _ Anything _ _).weaken (fun _ _ => trivial) fun _ _ h => h
    refine (Upholds.unguarded (Host.sends_logStatus _) keptBy_anything (by decide)).bind fun _ => ?_
    exact (Upholds.throw _).bind hwork
  · rename_i hready
    rw [Bool.not_eq_true', Bool.not_eq_false, Bool.or_eq_true] at hready
    refine (hwork ()).weaken (fun past h _ => ?_) fun _ _ h => h
    exact h.mono (fun _ _ => trivial) (fun _ hevent => ⟨status, hevent, hready⟩)
      fun _ _ => trivial

/-- An external flash is programmed through a device whose SRAM was erased in order. -/
theorem upholds_programExternalFlash (session : Session) (driver : ChipDriver) (offset : UInt32)
    (image : Image) :
    Upholds (safeOrder programming) Anything (session.programExternalFlash driver offset image)
      fun _ => Anything := by
  -- Instructions that are not guarded may be sent at any time.
  have hfree : ∀ {α : Type} {allowed : List Instruction} {program : Host α},
      Host.Sends allowed program → (∀ instruction ∈ allowed, instruction ∉ guarded) →
      Upholds (safeOrder programming) Anything program fun _ => Anything :=
    fun hsends hfree => .unguarded hsends keptBy_anything hfree
  unfold Session.programExternalFlash
  refine (Upholds.silent (Host.sends_setClockFrequency _) keptBy_anything).bind fun _ => ?_
  refine Upholds.bind ((hfree (Host.sends_enableConfig _) (by decide)).tryCatch fun error =>
    (upholds_log _ _).bind fun _ => .throw error) fun _ => ?_
  refine ((upholds_eraseSram _).weaken (fun _ h => h) fun _ _ _ => trivial).bind fun _ => ?_
  refine (hfree (Host.sends_send _) (by decide)).bind fun _ => ?_
  refine (hfree (Host.sends_send _) (by decide)).bind fun _ => ?_
  extract_lets finish serve
  have hfinish : ∀ u, Upholds (safeOrder programming) Anything (finish u) fun _ => Anything :=
    fun _ => hfree Host.sends_reload (by decide)
  have hserve : ∀ u, Upholds (safeOrder programming) Anything (serve u) fun _ => Anything := by
    intro _
    refine (hfree (Spi.sends_onHost _ _) (by decide)).bind fun _ => ?_
    split
    · exact (hfree (Host.sends_disableConfig _) (by decide)).bind hfinish
    · exact hfinish ()
  split
  · refine (hfree (Host.sends_disableConfig _) (by decide)).bind fun _ => ?_
    exact (hfree (Host.sends_send _) (by decide)).bind hserve
  · exact (hfree (Host.sends_send _) (by decide)).bind hserve

/-- Whatever the job asks for, a session programs in a safe order. -/
theorem upholds_program (session : Session) (offset : UInt32) :
    Upholds (safeOrder programming) Anything (session.program offset) fun _ => Anything := by
  unfold Session.program
  cases session.job.image? with
  | none => exact .pure _
  | some image =>
    cases session.job.target with
    | sram => exact (upholds_programSram session image).weaken (fun _ h => h) fun _ _ _ => trivial
    | flash =>
      dsimp only
      split
      · exact (upholds_log _ _).bind fun _ => .throw _
      · split
        · split
          · exact .throw _
          · exact (upholds_programExternalFlash ..).bind fun _ => .pure _
        · exact (upholds_programEmbeddedFlash session image).weaken (fun _ h => h)
            fun _ _ _ => trivial

/-! ## Erasing -/

/-- An erase is in a safe order too. It may be made of a device that was not seen ready, which only
programming has to see. -/
theorem upholds_erase (session : Session) :
    Upholds (safeOrder false) Anything session.erase fun _ => Anything := by
  unfold Session.erase
  cases session.job.target with
  | sram => exact (upholds_eraseSram _).weaken (fun _ h => h) fun _ _ _ => trivial
  | flash =>
    dsimp only
    split
    · exact .throw _
    · split
      · exact .throw _
      · refine (Upholds.silent (Host.sends_setClockFrequency _) keptBy_anything).bind fun _ => ?_
        exact (upholds_eraseFlash _ _).weaken (fun _ _ hprogramming => by cases hprogramming)
          fun _ _ _ => trivial

/-! ## Whole runs -/

/-- Whatever the cable does, memories are erased and written in the safe order, and an image that
was written went through all its stages, each of them closed by a design that was seen running. -/
theorem run_inOrder {σ : Type} (cable : Cable σ) (filter : LogFilter) (device : σ)
    (session : Session) :
    (∀ offset, InOrder (safeOrder true)
      (Host.run cable filter (session.program offset) device).exchanges) ∧
    InOrder (safeOrder false) (Host.run cable filter session.erase device).exchanges ∧
    ∀ image offset check, session.job.image? = some image →
      (session.job.target = .flash → session.usesExternalFlash = false) →
      (Host.run cable filter (session.program offset) device).result = .ok check →
      WrittenIn (session.writeStages image)
        (Host.run cable filter (session.program offset) device).exchanges := by
  refine ⟨fun offset => ?_, ?_, fun image offset check himage hinternal hok => ?_⟩
  · exact ((upholds_program session offset) (Host.runs_run ..) {} trivial).1.inOrder
  · exact ((upholds_erase session) (Host.runs_run ..) {} trivial).1.inOrder
  · have hruns := Host.runs_run cable filter (session.program offset) device
    rw [hok] at hruns
    exact writes_program himage hinternal offset hruns

/-- A page is written to the embedded flash after the flash was erased and no design came up, and
the one stage of writing ended with the new design running. -/
theorem run_inOrder_flash :
    let image := (Bitstream.ofData [1, 2, 3]).toImage
    let session := ofJob 0x0900281B { target := .flash, image? := some image }
    let outcome := Host.run Simulator.cable none (session.program 0) (Simulator.powerUp {})
    (∃ before exchange after, outcome.exchanges = before ++ exchange :: after ∧
      exchange.1.instruction? = some .flashProgram ∧
      FlashCleared (({} : Trace).extend before).events) ∧
    WrittenIn (session.writeStages image) outcome.exchanges := by
  intro image session outcome
  have hok : outcome.result = .ok (.differs 0 0x0402) := by decide +kernel
  have hsent : outcome.exchanges.any
      (fun exchange => exchange.1.instruction? == some .flashProgram) = true := by
    decide +kernel
  obtain ⟨exchange, hmem, hflash⟩ := List.any_eq_true.mp hsent
  obtain ⟨before, after, hsplit⟩ := List.append_of_mem hmem
  have hflash' := beq_iff_eq.mp hflash
  obtain ⟨hprogram, -, hwritten⟩ :=
    run_inOrder Simulator.cable none (Simulator.powerUp {}) session
  refine ⟨⟨before, exchange, after, hsplit, hflash', ?_⟩, ?_⟩
  · exact hprogram 0 before exchange after .flashProgram hsplit hflash'
  · exact hwritten image 0 _ rfl (fun _ => rfl) hok

end Session

end FpgaProgrammer
