import FpgaProgrammer.Proofs.Programming.SramErase
import FpgaProgrammer.Proofs.Simulator.Reachable

/-!
# Devices at rest

A device is `Idle` if no erase is under way, be it of the SRAM or of the embedded flash. Two
instructions begin an erase, and a program that sends neither leaves a device at rest (`Ends.idle`).

An SRAM erase is over when its end is reported, as a device is `Pending` in between: after a wait
for the report the device is at rest (`Ends.idle_of_awaitErased`).
-/

namespace FpgaProgrammer.Simulator

variable {α : Type} {filter : LogFilter} {sim after : Simulator}

/-- The device is at rest: no erase is under way. -/
structure Idle (sim : Simulator) : Prop where
  /-- No erase of the SRAM is running. -/
  uncounted : sim.eraseCountdown? = none
  /-- No attempt to erase the embedded flash is under way. -/
  unarmed : sim.eraseArmed = false

/-- Traffic leaves a device at rest. -/
theorem Traffic.idle (h : Traffic sim after) (hidle : sim.Idle) : after.Idle :=
  ⟨h.countdown_eq.trans hidle.uncounted,
    (h.watched.read eraseArmed fun _ => rfl).trans hidle.unarmed⟩

/-- Only the erase of the SRAM begins a countdown. -/
theorem Ends.uncounted {program : Host α} {result : Except Error α} {allowed : List Instruction}
    (h : Ends filter program sim result after) (hsends : Host.Sends allowed program)
    (hsram : .eraseSram ∉ allowed) (hsim : sim.eraseCountdown? = none) :
    after.eraseCountdown? = none := by
  have hexecute : ∀ (sim : Simulator), ∀ instruction ∈ allowed, sim.eraseCountdown? = none →
      (sim.execute instruction).eraseCountdown? = none := by
    intro sim instruction hmem hnone
    have herase : instruction ≠ .eraseSram := fun h => hsram (h ▸ hmem)
    by_cases hdone : instruction = .transferDone
    · rw [hdone]
      exact hnone
    · exact (passing_execute sim herase hdone).2.1.trans hnone
  refine h.invariant_of_sends hsends (kept_by_call ?_ ?_ hexecute) hsim
  · exact fun _ _ _ _ _ _ _ _ hnone => hnone
  · intro sim given hnone
    obtain ⟨_, _, _, _, _, _, _, _, _, hframe, hkept, -⟩ := scan_frame sim given
    rw [hframe]
    exact hkept hnone

/-- A program that begins no erase leaves a device at rest. -/
theorem Ends.idle {program : Host α} {result : Except Error α} {allowed : List Instruction}
    (h : Ends filter program sim result after) (hsends : Host.Sends allowed program)
    (hsram : .eraseSram ∉ allowed) (hflash : .flashErase ∉ allowed) (hsim : sim.Idle) :
    after.Idle := by
  -- No other instruction arms the device, and closing the gate ends an attempt.
  have hexecute : ∀ (sim : Simulator), ∀ instruction ∈ allowed, sim.eraseArmed = false →
      (sim.execute instruction).eraseArmed = false := by
    intro sim instruction hmem hunarmed
    cases instruction with
    | flashErase => exact absurd hmem hflash
    | configDisable => exact (settled_configDisable sim).unarmed
    | checksumEnd =>
      dsimp only [execute, latchChecksum]
      split <;> exact hunarmed
    | configEnable | eraseSram | flashProgram =>
      dsimp only [execute]
      split <;> exact hunarmed
    | _ => exact hunarmed
  refine ⟨h.uncounted hsends hsram hsim.uncounted,
    h.invariant_of_sends hsends (kept_by_call ?_ ?_ hexecute) hsim.unarmed⟩
  · exact fun _ _ _ _ _ _ _ _ hunarmed => hunarmed
  · intro sim given hunarmed
    obtain ⟨_, _, _, _, _, _, _, _, _, hframe, -⟩ := scan_frame sim given
    rw [hframe]
    exact hunarmed

/-- A device on which an SRAM erase may be running that is not reported as finished. -/
structure Pending (sim : Simulator) : Prop where
  /-- No attempt to erase the embedded flash is under way. -/
  unarmed : sim.eraseArmed = false
  /-- An erase is not reported as finished before it is. -/
  unreported : sim.eraseCountdown? = none ∨ sim.memoryErased = false

/-- Traffic does not end an erase that is pending. -/
theorem Traffic.pending (h : Traffic sim after) (hpending : sim.Pending) : after.Pending :=
  ⟨(h.watched.read eraseArmed fun _ => rfl).trans hpending.unarmed,
    hpending.unreported.imp h.countdown_eq.trans h.erased_eq.trans⟩

/-- A read of the status reports an erase as finished when it ends. -/
theorem Pending.readStatus (h : sim.Pending) : sim.readStatus.2.Pending := by
  have hunarmed : sim.readStatus.2.eraseArmed = false :=
    ((Watched.of_readStatus sim).read eraseArmed fun _ => rfl).trans h.unarmed
  refine ⟨hunarmed, ?_⟩
  dsimp only [Simulator.readStatus]
  split
  · rename_i hnone
    exact .inl hnone
  · exact .inl rfl
  · rename_i hrunning
    exact .inr (h.unreported.resolve_left (by simp [hrunning]))

/-- The SRAM erase begins with its end not reported. -/
theorem Idle.pending (h : sim.Idle) : (sim.execute .eraseSram).Pending := by
  dsimp only [execute]
  split
  · exact ⟨h.unarmed, .inr rfl⟩
  · exact ⟨h.unarmed, .inl h.uncounted⟩

/-- After a wait for the end of an SRAM erase the device is at rest. -/
theorem Ends.idle_of_awaitErased {limit : Nat} (h : Ends filter
      (Device.awaitStatus (Device.only .memoryErase) (Device.only .memoryErase) limit) sim (.ok ())
      after) (hpending : sim.Pending) : after.Idle := by
  -- On the reads that are allowed: the device stays pending up to the one that reports the end.
  induction limit generalizing sim with
  | zero =>
    have hthrown := h.rest (ends_log ..)
    cases (hthrown.unique (ends_throw ..)).1
  | succ limit ih =>
    obtain ⟨read, hread, htraffic⟩ := ends_readStatus filter sim
    have hpending' := hpending.readStatus
    have hrest := (h.rest hread).rest (ends_log ..)
    split at hrest
    · rename_i hshown
      -- What is reported as finished is not running any more.
      rw [Status.and_mask_eq_mask] at hshown
      have herased : sim.readStatus.2.memoryErased = true :=
        (has_status sim.readStatus.2 .memoryErase).symm.trans hshown
      have huncounted := hpending'.unreported.resolve_right (by simp [herased])
      obtain ⟨-, rfl⟩ := (ends_pure ..).unique hrest
      exact htraffic.idle ⟨huncounted, hpending'.unarmed⟩
    · exact ih hrest (htraffic.pending hpending')

/-- Closing the gate ends an erase of the embedded flash. -/
theorem Ends.idle_of_disableConfig {limit : Nat}
    (h : Ends filter (Device.disableConfig limit) sim (.ok ()) after)
    (huncounted : sim.eraseCountdown? = none) : after.Idle := by
  have hclosed : (sim.execute .configDisable).Idle :=
    ⟨(passing_execute sim (by decide) (by decide)).2.1.trans huncounted,
      (settled_configDisable sim).unarmed⟩
  have hwaits : Host.Sends [.noop, .readStatus] (do
      Device.send .noop
      Device.awaitStatus (Device.only .systemEditMode) Device.nothing limit) :=
    ((Host.sends_send _).mono (by decide)).bind fun _ =>
      (Host.sends_awaitStatus _ _ _).mono (by decide)
  have hrest := h.rest (ends_send ..)
  exact hrest.idle hwaits (by decide) (by decide) ((traffic_took sim .configDisable).idle hclosed)

end FpgaProgrammer.Simulator
