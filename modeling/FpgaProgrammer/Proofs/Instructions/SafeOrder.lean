import FpgaProgrammer.Proofs.Instructions.RawImage
import FpgaProgrammer.Proofs.Instructions.Order

/-!
# Memories are only erased and written in the safe order

Four instructions destroy what a memory holds. `safeOrder` says what must have been done and seen
before each of them is sent:

* the SRAM and the embedded flash are erased through a gate that was just seen open;
* the SRAM is written after it was seen erased, with the gate closed and no design running;
* the embedded flash is written after it was erased and no design was seen running, and a session
  that programs it erases it only on a device that was seen ready.
-/

namespace FpgaProgrammer

/-! ## The order -/

/-- An SRAM erase was begun, and its end was seen. -/
def SramErased : List Event → Prop :=
  After (After Anything (Event.Takes .eraseSram) Anything)
    (Event.Shows fun status => status.has .memoryErase = true) Anything

/-- After an SRAM erase the gate was closed and seen closed, and no design was seen running. -/
def SramCleared : List Event → Prop :=
  After (GateSeenClosed SramErased)
    (Event.Shows fun status => status.has .doneFinal = false) Anything

/-- So it is, and that no design runs was seen by the last thing that was done. -/
def SramJustCleared : List Event → Prop :=
  After (GateSeenClosed SramErased)
    (Event.Shows fun status => status.has .doneFinal = false) Nothing

/-- The embedded flash was erased, and nothing was sent to erase it again. -/
def FlashTried : List Event → Prop :=
  After Anything (Event.Takes .flashErase) (Unsent .flashErase)

/-- After the last erase of the embedded flash, no design was seen running. -/
def FlashCleared : List Event → Prop :=
  After Anything (Event.Takes .flashErase) fun later => Unsent .flashErase later ∧
    After Anything (Event.Shows fun status => status.has .doneFinal = false) Anything later

/-- A running design, or a device that was just powered up, was seen. -/
def SeenReady : List Event → Prop :=
  After Anything (Event.Shows fun status =>
    status.has .gowinValid = true ∨ status.has .powerOnReset = true) Anything

/-- What must have happened before an instruction is sent that destroys what a memory holds. -/
def safeOrder (programming : Bool) : Order
  | .eraseSram, past => GateSeenOpen past
  | .flashErase, past => GateSeenOpen past ∧ (programming = true → SeenReady past)
  | .transferWrite, past => SramCleared past
  | .flashProgram, past => FlashCleared past
  | _, _ => True

/-- The instructions that the order is about. -/
def guarded : List Instruction :=
  [.eraseSram, .flashErase, .transferWrite, .flashProgram]

variable {programming : Bool} {allowed : List Instruction} {P : List Event → Prop} {α : Type}

/-- Only the guarded instructions have to wait for anything. -/
theorem safeOrder_of_unguarded {instruction : Instruction} (h : instruction ∉ guarded)
    (past : List Event) : safeOrder programming instruction past := by
  cases instruction with
  | eraseSram | flashErase | transferWrite | flashProgram => simp [guarded] at h
  | _ => trivial

/-- An erase of the SRAM that was seen to end stays a fact about the past, whatever is sent. -/
theorem keptBy_sramErased : KeptBy allowed SramErased :=
  keptBy_after keptBy_anything

theorem keptBy_sramCleared : KeptBy allowed SramCleared :=
  keptBy_after keptBy_anything

/-- The last erase of the embedded flash is the last one until there is another. -/
theorem keptBy_flashTried (h : .flashErase ∉ allowed) : KeptBy allowed FlashTried :=
  keptBy_after (keptBy_unsent h)

/-- An embedded flash that was seen empty counts as such until it is erased again. -/
theorem keptBy_flashCleared (h : .flashErase ∉ allowed) : KeptBy allowed FlashCleared :=
  keptBy_after (keptBy_and (keptBy_unsent h) (keptBy_after keptBy_anything))

/-- A device that was seen ready has been seen ready, whatever is sent. -/
theorem keptBy_seenReady : KeptBy allowed SeenReady :=
  keptBy_after keptBy_anything

/-- A program that sends none of the guarded instructions is free to run. -/
theorem Upholds.unguarded {program : Host α} (hsends : Host.Sends allowed program)
    (hkept : KeptBy allowed P) (hfree : ∀ instruction ∈ allowed, instruction ∉ guarded) :
    Upholds (safeOrder programming) P program fun _ => P :=
  .keep hsends hkept fun instruction hmem past _ =>
    safeOrder_of_unguarded (hfree instruction hmem) past

/-- A program that sends one of the guarded instructions obeys the order if what has to come before
that instruction holds throughout. -/
theorem Upholds.unguarded_but (instruction : Instruction) {program : Host α}
    (hsends : Host.Sends allowed program) (hkept : KeptBy allowed P)
    (hfree : ∀ other ∈ allowed, other ≠ instruction → other ∉ guarded)
    (horder : ∀ past, P past → safeOrder programming instruction past) :
    Upholds (safeOrder programming) P program fun _ => P := by
  refine .keep hsends hkept fun other hmem past hpast => ?_
  by_cases hother : other = instruction
  · rw [hother]
    exact horder past hpast
  · exact safeOrder_of_unguarded (hfree other hmem hother) past

/-! ## The SRAM -/

/-- The SRAM is erased in order, whatever happened before, and the status is read at the end. -/
theorem upholds_eraseSram_justCleared (limit : Nat) :
    Upholds (safeOrder programming) Anything (Device.Sram.erase limit)
      fun _ => SramJustCleared := by
  let begun := After Anything (Event.Takes .eraseSram) Anything
  let closed := GateSeenClosed SramErased
  have hbegun : ∀ {allowed : List Instruction}, KeptBy allowed begun :=
    keptBy_after keptBy_anything
  have hclosed : ∀ {allowed : List Instruction}, KeptBy allowed closed :=
    keptBy_after keptBy_anything
  have herase : Upholds (safeOrder programming) GateSeenOpen (Device.send .eraseSram)
      fun _ => begun :=
    (upholds_send _ fun _ hopen => hopen).weaken (fun _ h => h) fun _ _ h =>
      h.mono (fun _ _ => trivial) (fun _ h => h) fun _ _ => trivial
  have hwait : Upholds (safeOrder programming) begun
      (Device.awaitStatus (Device.only .memoryErase) (Device.only .memoryErase) limit)
      fun _ => SramErased := by
    refine (upholds_awaitStatus hbegun (fun _ _ => trivial) _ _ limit).weaken (fun _ h => h)
      fun _ past h => ?_
    refine h.mono (fun _ h => h) (fun _ hevent => ?_) fun _ _ => trivial
    obtain ⟨status, hshown, hmatches⟩ := hevent
    exact ⟨status, hshown, (Status.and_mask_eq_mask ..).symm.trans hmatches⟩
  refine (upholds_log _ _).bind fun _ => ?_
  refine (Upholds.unguarded (Host.sends_logStatus _) keptBy_anything (by decide)).bind fun _ => ?_
  refine (upholds_enableConfig (fun _ => trivial) (fun _ => trivial) limit).bind fun _ => ?_
  refine herase.bind fun _ => ?_
  refine (Upholds.unguarded (Host.sends_send _) hbegun (by decide)).bind fun _ => ?_
  refine hwait.bind fun _ => ?_
  refine (Upholds.unguarded (Host.sends_send _) keptBy_sramErased (by decide)).bind fun _ => ?_
  refine (Upholds.unguarded (Host.sends_send _) keptBy_sramErased (by decide)).bind fun _ => ?_
  refine (upholds_disableConfig (fun _ => trivial) (fun _ => trivial) (fun _ => trivial)
    limit).bind fun _ => ?_
  refine (Upholds.unguarded (Host.sends_logStatus _) hclosed (by decide)).bind fun _ => ?_
  refine (upholds_readStatus hclosed fun _ _ => trivial).bind fun status => ?_
  -- The erase goes on only if the last look at the status shows no design.
  split
  · exact (upholds_log _ _).bind fun _ => (Upholds.throw _).bind fun _ => upholds_log _ _
  · rename_i hdone
    refine (upholds_log _ _).weaken (fun _ h => h) fun _ past h => ?_
    exact h.mono (fun _ h => h)
      (fun _ hevent => ⟨status, hevent, Bool.eq_false_of_not_eq_true hdone⟩) fun _ h => h

/-- The SRAM is erased in order, whatever happened before. -/
theorem upholds_eraseSram (limit : Nat) :
    Upholds (safeOrder programming) Anything (Device.Sram.erase limit) fun _ => SramCleared :=
  (upholds_eraseSram_justCleared limit).weaken (fun _ h => h) fun _ _ h =>
    h.mono (fun _ h => h) (fun _ h => h) fun _ _ => trivial

/-- The SRAM is written in order once it is cleared. -/
theorem upholds_loadSram (image : Image) :
    Upholds (safeOrder programming) SramCleared (Device.Sram.load image) fun _ => SramCleared :=
  .unguarded_but .transferWrite (Host.sends_loadSram image) keptBy_sramCleared (by decide)
    fun _ hcleared => hcleared

/-! ## The embedded flash -/

/-- A session that programs the flash has seen a device that is ready. -/
def ReadyIf (programming : Bool) (past : List Event) : Prop :=
  programming = true → SeenReady past

theorem keptBy_readyIf : KeptBy allowed (ReadyIf programming) :=
  keptBy_imp keptBy_seenReady

/-- One attempt erases the flash in order. -/
theorem upholds_attemptErase (profile : Profile) (limit : Nat) :
    Upholds (safeOrder programming) (ReadyIf programming)
      (Device.EmbeddedFlash.attemptErase profile limit)
      fun _ past => FlashTried past ∧ ReadyIf programming past := by
  have hkept : ∀ {allowed : List Instruction}, .flashErase ∉ allowed →
      KeptBy allowed fun past => FlashTried past ∧ ReadyIf programming past :=
    fun h => keptBy_and (keptBy_flashTried h) keptBy_readyIf
  have hopen : Upholds (safeOrder programming) (ReadyIf programming) (Device.enableConfig limit)
      fun _ past => GateSeenOpen past ∧ ReadyIf programming past :=
    ((upholds_enableConfig (fun _ => trivial) (fun _ => trivial) limit).frame
      (Host.sends_enableConfig limit) keptBy_readyIf).weaken (fun _ h => ⟨trivial, h⟩) fun _ _ h => h
  have herase : Upholds (safeOrder programming)
      (fun past => GateSeenOpen past ∧ ReadyIf programming past) (Device.send .flashErase)
      fun _ past => FlashTried past ∧ ReadyIf programming past := by
    refine ((upholds_send _ fun _ h => h).frame (Host.sends_send _) keptBy_readyIf).weaken
      (fun _ h => ⟨h, h.2⟩) fun _ past h => ⟨?_, h.2⟩
    refine h.1.mono (fun _ _ => trivial) (fun _ h => h) fun rest hrest => ?_
    rw [show rest = [] from hrest]
    exact fun _ => List.not_mem_nil
  refine (Upholds.unguarded (Host.sends_logStatus _) keptBy_readyIf (by decide)).bind fun _ => ?_
  refine hopen.bind fun _ => herase.bind fun _ => ?_
  -- From here on nothing is sent that would be an erase of its own.
  have hsilent : KeptBy [] fun past => FlashTried past ∧ ReadyIf programming past :=
    hkept List.not_mem_nil
  refine (Upholds.silent (Host.sends_setState _) hsilent).bind fun _ => ?_
  refine (Upholds.silent (Host.sends_pulse _) hsilent).bind fun _ => ?_
  refine (Upholds.silent (Host.sends_idle _) hsilent).bind fun _ => ?_
  refine (Upholds.unguarded (Host.sends_disableConfig _) (hkept (by decide)) (by decide)).bind
    fun _ => ?_
  refine (Upholds.silent Host.sends_flush hsilent).bind fun _ => ?_
  refine (Upholds.silent (Host.sends_sleep _) hsilent).bind fun _ => ?_
  exact .unguarded Host.sends_readStatus (hkept (by decide)) (by decide)

/-- However many attempts are made, the flash was tried if any was. -/
theorem upholds_tryErase (profile : Profile) (limit left made : Nat) :
    Upholds (safeOrder programming)
      (fun past => (left = 0 → FlashTried past) ∧ ReadyIf programming past)
      (Device.EmbeddedFlash.tryErase profile limit left made)
      fun _ past => FlashTried past ∧ ReadyIf programming past := by
  induction left generalizing made with
  | zero => exact (Upholds.pure ()).weaken (fun _ h => h) fun _ _ h => ⟨h.1 rfl, h.2⟩
  | succ left ih =>
    refine ((upholds_attemptErase profile limit).weaken (fun _ h => h.2) fun _ _ h => h).bind
      fun status => (upholds_log _ _).bind fun _ => ?_
    refine (upholds_progress _).bind fun _ => ?_
    -- Another attempt begins like the first one, and ends the same if there is none left.
    split
    · exact (ih (made + 1)).weaken (fun _ h => ⟨fun _ => h.1, h.2⟩) fun _ _ h => h
    · exact .pure ()

/-- The flash is cleared once the status that is read after the last attempt shows no design. -/
theorem flashCleared_of_shown {status : Status} (hdone : status.has .doneFinal = false)
    {past : List Event} (h : After FlashTried (· = .shown status) Nothing past) :
    FlashCleared past := by
  refine h.snoc fun rest happened hrest hshown => ⟨?_, ?_⟩
  · rw [hshown]
    exact (keptBy_unsent List.not_mem_nil rest hrest).2 status
  · exact ⟨rest, happened, [], rfl, trivial, ⟨status, hshown, hdone⟩, trivial⟩

/-- The flash is erased in order, and after a success no design was seen running. -/
theorem upholds_eraseFlash (profile : Profile) (limit : Nat) :
    Upholds (safeOrder programming) (ReadyIf programming)
      (Device.EmbeddedFlash.erase profile limit) fun _ => FlashCleared := by
  unfold Device.EmbeddedFlash.erase
  refine (Upholds.unguarded Host.sends_readStatus keptBy_readyIf (by decide)).bind fun _ => ?_
  extract_lets finish attempts
  have hattempts : ∀ u, Upholds (safeOrder programming) (ReadyIf programming) (attempts u)
      fun _ => FlashCleared := by
    intro _
    -- There is at least one attempt.
    have htry : Upholds (safeOrder programming) (ReadyIf programming)
        (Device.EmbeddedFlash.tryErase profile limit Device.EmbeddedFlash.eraseAttempts 0)
        fun _ => FlashTried := by
      refine (upholds_tryErase profile limit _ 0).weaken (fun _ hready => ⟨fun hnone => ?_, hready⟩)
        fun _ _ h => h.1
      exact absurd hnone (by decide)
    refine (upholds_log _ _).bind fun _ => (upholds_reporting _ _ htry).bind fun _ => ?_
    refine (upholds_readStatus (keptBy_flashTried (by decide)) fun _ _ => trivial).bind
      fun status => ?_
    split
    · exact (upholds_log _ _).bind fun _ => (Upholds.throw _).bind fun _ => upholds_log _ _
    · rename_i hdone
      exact (upholds_log _ _).weaken (fun _ h => h) fun _ _ =>
        flashCleared_of_shown (Bool.eq_false_of_not_eq_true hdone)
  split
  · have hsram : Upholds (safeOrder programming) (ReadyIf programming) (Device.Sram.erase limit)
        fun _ => ReadyIf programming :=
      ((upholds_eraseSram limit).frame (Host.sends_eraseSram limit) keptBy_readyIf).weaken
        (fun _ h => ⟨trivial, h⟩) fun _ _ h => h.2
    exact hsram.bind hattempts
  · exact hattempts ()

/-- The flash is written in order once it is cleared. -/
theorem upholds_writeFlash (profile : Profile) (limit : Nat) (base : UInt32) (image : Image) :
    Upholds (safeOrder programming) FlashCleared
      (Device.EmbeddedFlash.write profile limit base image) fun _ => FlashCleared :=
  .unguarded_but .flashProgram (Host.sends_writeFlash profile limit base image)
    (keptBy_flashCleared (by decide)) (by decide) fun _ hcleared => hcleared

end FpgaProgrammer
