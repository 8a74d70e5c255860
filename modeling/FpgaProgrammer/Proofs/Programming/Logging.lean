import FpgaProgrammer.Proofs.Failures.Operations
import FpgaProgrammer.Proofs.Simulator.Idle
import FpgaProgrammer.Proofs.Simulator.Twins

/-!
# Logging leaves the device alone

At level debug the host reads the status register for the log, before and after most of what it
does. A read sends an instruction, and while an SRAM erase is running it brings the erase nearer to
its end, so a host that logs is not the same to the device as one that does not.

`Alike` compares the runs of one program under two log filters. They go in step from one read for
the log to the next, as nothing else asks what is recorded (`Heedless`); and a read for the log is
made only while the device is at rest, when it leaves nothing but marks of traffic.

* `alike_of_heedless`: devices that are in step stay so while the host does not ask.
* `alike_sendOpcode`: an instruction brings devices in step that differ in the marks of traffic.
* `alike_logStatus`: a read for the log leaves them different in no more than these marks.
* `alike_operation`: every operation, with the states in which its reads for the log are made.
* `unmarked_run`: an operation on a device at rest has the same result and the same effect under any
  two filters, whether it succeeds or fails.
-/

namespace FpgaProgrammer

/-! ## Programs that do not ask what is recorded -/

/-- The request does not ask which messages are recorded. -/
def Request.IsHeedless (request : Request) : Prop :=
  ∀ level, request ≠ .records level

namespace Host

variable {α β : Type}

/-- The program does not ask which messages are recorded. -/
def Heedless (program : Host α) : Prop :=
  (ExceptT.run program).Asks Request.IsHeedless

/-- Loops of scans and clocks ask for nothing that is recorded. -/
theorem sequential_heedless : Sequential Heedless :=
  sequential_asks fun _ _ _ => Request.noConfusion

theorem heedless_progress (report : Progress) : Heedless (progress report) :=
  ⟨fun _ => Request.noConfusion, fun _ => trivial⟩

end Host

namespace Simulator

open Host (sequential_heedless)

variable {α β : Type} {filter filter' : LogFilter}

/-! ## Programs under two filters -/

/-- From devices that are as `pre` says, the program ends alike, whichever of two filters says what
is recorded. It leaves the devices as `post` says, and as twins at least if it fails. -/
def Alike (filter filter' : LogFilter) (pre : Simulator → Simulator → Prop) (program : Host α)
    (post : Simulator → Simulator → Prop) : Prop :=
  ∀ ⦃one other⦄, pre one other → ∃ result one' other', Ends filter program one result one' ∧
    Ends filter' program other result other' ∧
    match result with
    | .ok _ => post one' other'
    | .error _ => Twins one' other'

/-- The devices are as `related` says, and the first is as `held` says. -/
def Tracked (related : Simulator → Simulator → Prop) (held : Simulator → Prop)
    (one other : Simulator) : Prop :=
  related one other ∧ held one

/-- Twins at rest. -/
abbrev Resting : Simulator → Simulator → Prop :=
  Tracked Twins Idle

/-- Devices in step, and at rest. -/
abbrev Attuned : Simulator → Simulator → Prop :=
  Tracked InStep Idle

section Rules

variable {pre middle post : Simulator → Simulator → Prop} {held held' : Simulator → Prop}
  {program : Host α}

theorem alike_pure (value : α) : Alike filter filter' post (pure value) post :=
  fun one other hpre => ⟨_, one, other, ends_pure .., ends_pure .., hpre⟩

/-- The same error is thrown in both runs, and twins are left where there were twins. -/
theorem alike_throw_of_twins (hpre : ∀ one other, pre one other → Twins one other) (error : Error) :
    Alike filter filter' pre (throw error : Host α) post :=
  fun one other hpre' => ⟨_, one, other, ends_throw .., ends_throw .., hpre one other hpre'⟩

theorem alike_throw (error : Error) : Alike filter filter' Resting (throw error : Host α) post :=
  alike_throw_of_twins (fun _ _ => And.left) error

/-- A program that leaves every device as it is. -/
theorem alike_of_ends {program : Host Unit}
    (h : ∀ filter sim, Ends filter program sim (.ok ()) sim) :
    Alike filter filter' post program post :=
  fun one other hpre => ⟨_, one, other, h _ _, h _ _, hpre⟩

/-- A program that leaves a twin of every device at rest. -/
theorem alike_of_twins {program : Host Unit} (h : ∀ filter sim, sim.Idle →
    ∃ after, Ends filter program sim (.ok ()) after ∧ Twins sim after) :
    Alike filter filter' Resting program Resting := by
  rintro one other ⟨htwins, hidle⟩
  obtain ⟨one', hone, hone'⟩ := h filter one hidle
  obtain ⟨other', hother, hother'⟩ := h filter' other (htwins.toTraffic.idle hidle)
  exact ⟨_, one', other', hone, hother, hone'.symm.trans (htwins.trans hother'),
    hone'.toTraffic.idle hidle⟩

theorem Alike.strengthen {narrower : Simulator → Simulator → Prop}
    (h : Alike filter filter' pre program post)
    (hpre : ∀ one other, narrower one other → pre one other) :
    Alike filter filter' narrower program post :=
  fun one other hnarrower => h (hpre one other hnarrower)

theorem Alike.weaken {wider : Simulator → Simulator → Prop}
    (h : Alike filter filter' pre program post)
    (hpost : ∀ one other, post one other → wider one other) :
    Alike filter filter' pre program wider := by
  intro one other hpre
  obtain ⟨result, one', other', hone, hother, hafter⟩ := h hpre
  refine ⟨result, one', other', hone, hother, ?_⟩
  cases result with
  | ok value => exact hpost _ _ hafter
  | error error => exact hafter

/-- Both runs of a sequence go on with the same value, or fail with the same error. -/
theorem Alike.bind {next : α → Host β} (h : Alike filter filter' pre program middle)
    (hnext : ∀ value, Alike filter filter' middle (next value) post) :
    Alike filter filter' pre (program >>= next) post := by
  intro one other hpre
  obtain ⟨result, one', other', hone, hother, hafter⟩ := h hpre
  cases result with
  | error error => exact ⟨_, one', other', hone.bind_error, hother.bind_error, hafter⟩
  | ok value =>
    obtain ⟨result, one'', other'', hone', hother', hafter'⟩ := hnext value hafter
    exact ⟨result, one'', other'', hone.bind hone', hother.bind hother', hafter'⟩

/-- What is in step is twins. -/
theorem Alike.loosen (h : Alike filter filter' pre program (Tracked InStep held)) :
    Alike filter filter' pre program (Tracked Twins held) :=
  h.weaken fun _ _ hafter => ⟨hafter.1.toTwins, hafter.2⟩

/-- A sequence whose second part needs twins alone. -/
theorem Alike.next {next : α → Host β}
    (h : Alike filter filter' pre program (Tracked InStep held))
    (hnext : ∀ value, Alike filter filter' (Tracked Twins held) (next value) post) :
    Alike filter filter' pre (program >>= next) post :=
  h.loosen.bind hnext

/-- A failure that is reported and thrown again is the failure. -/
theorem Alike.rethrow (h : Alike filter filter' pre program post) (level : LogLevel)
    (text : String) :
    Alike filter filter' pre (tryCatch program fun error => do
      Host.log level text
      throw error) post := by
  intro one other hpre
  obtain ⟨result, one', other', hone, hother, hafter⟩ := h hpre
  exact ⟨result, one', other', hone.rethrow .., hother.rethrow .., hafter⟩

/-- Reports are made to the host in both runs, and leave the devices alone. -/
theorem Alike.reporting {body : Host Unit} (h : Alike filter filter' pre body post) (stage : Stage)
    (total : Nat) : Alike filter filter' pre (Host.reporting stage total body) post := by
  intro one other hpre
  obtain ⟨result, one', other', hone, hother, hafter⟩ := h hpre
  exact ⟨result, one', other', hone.reporting .., hother.reporting .., hafter⟩

/-- What is known of a device after a success is known of the first of two. -/
theorem Alike.track (h : Alike filter filter' pre program post)
    (hheld : ∀ ⦃sim value after⦄, held sim → Ends filter program sim (.ok value) after →
      held' after) :
    Alike filter filter' (Tracked pre held) program (Tracked post held') := by
  intro one other hpre
  obtain ⟨result, one', other', hone, hother, hafter⟩ := h hpre.1
  refine ⟨result, one', other', hone, hother, ?_⟩
  cases result with
  | ok value => exact ⟨hafter, hheld hpre.2 hone⟩
  | error error => exact hafter

/-- A program that does not erase the SRAM begins no countdown. -/
theorem Alike.uncounted {allowed : List Instruction} (h : Alike filter filter' pre program post)
    (hsends : Host.Sends allowed program) (hsram : .eraseSram ∉ allowed) :
    Alike filter filter' (Tracked pre (·.eraseCountdown? = none)) program
      (Tracked post (·.eraseCountdown? = none)) :=
  h.track fun _ _ _ hnone hends => hends.uncounted hsends hsram hnone

/-- A program that begins no erase leaves the device at rest. -/
theorem Alike.idle {allowed : List Instruction} (h : Alike filter filter' pre program post)
    (hsends : Host.Sends allowed program) (hsram : .eraseSram ∉ allowed)
    (hflash : .flashErase ∉ allowed) :
    Alike filter filter' (Tracked pre Idle) program (Tracked post Idle) :=
  h.track fun _ _ _ hidle hends => hends.idle hsends hsram hflash hidle

/-- Devices that are in step stay so, as long as the host does not ask what is recorded. -/
theorem alike_of_heedless (h : program.Heedless) : Alike filter filter' InStep program InStep := by
  -- On the dialogue: every call is answered alike, and of the other questions it is only the one
  -- about the log that has more than one answer.
  have hrun : ∀ d : HostDialogue (Except Error α), d.Asks Request.IsHeedless →
      ∀ one other, InStep one other →
        (d.run (Host.surroundings cable filter') other).1 =
            (d.run (Host.surroundings cable filter) one).1 ∧
          InStep (d.run (Host.surroundings cable filter) one).2
            (d.run (Host.surroundings cable filter') other).2 := by
    intro d
    induction d with
    | done value => exact fun _ one other hstep => ⟨rfl, hstep⟩
    | ask question next ih =>
      intro hasks one other hstep
      cases question with
      | cable call =>
        obtain ⟨hreply, hstep'⟩ := hstep.call call
        obtain ⟨hresult, hafter⟩ := ih _ (hasks.2 _) _ _ hstep'
        dsimp only [Dialogue.run, Host.surroundings]
        rw [hreply]
        exact ⟨hresult, hafter⟩
      | records level => exact absurd rfl (hasks.1 level)
      | _ => exact ih _ (hasks.2 _) _ _ hstep
  intro one other hstep
  obtain ⟨hresult, hafter⟩ := hrun _ h one other hstep
  let other' := (Host.eval (Host.surroundings cable filter') program other).2
  refine ⟨_, _, other', rfl, Prod.ext hresult rfl, ?_⟩
  split
  · exact hafter
  · exact hafter.toTwins

/-- Devices stay in step and at rest, as long as no instruction is sent either. -/
theorem alike_of_silent (h : program.Heedless) (hsends : Host.Sends [] program) :
    Alike filter filter' Attuned program Attuned :=
  (alike_of_heedless h).idle hsends List.not_mem_nil List.not_mem_nil

end Rules

/-! ## Calls and instructions -/

section Calls

variable {kept : Simulator → Simulator → Prop}

theorem alike_log (level : LogLevel) (text : String) :
    Alike filter filter' kept (Host.log level text) kept :=
  alike_of_ends fun _ _ => ends_log ..

theorem alike_progress (report : Progress) :
    Alike filter filter' kept (Host.progress report) kept :=
  alike_of_ends fun _ _ => ends_progress ..

theorem alike_flush : Alike filter filter' kept Host.flush kept :=
  alike_of_ends fun _ _ => ends_flush ..

/-- A state of the TAP controller is a mark of traffic to devices at rest. -/
theorem alike_setState (state : TapState) :
    Alike filter filter' Resting (Host.setState state) Resting :=
  alike_of_twins fun _ sim _ => ⟨_, ends_setState .., .of_inState sim state⟩

/-- Clocks only matter while an erase of the embedded flash is under way, and none is at rest. -/
theorem alike_toggleClock (cycles : UInt32) :
    Alike filter filter' Resting (Host.toggleClock cycles) Resting :=
  alike_of_twins fun _ _ hidle => ⟨_, ends_toggleClock .., .of_toggleClock hidle.unarmed cycles⟩

/-- Twins have the same frequency and wait for the same time. -/
theorem alike_idle (microseconds : Nat) :
    Alike filter filter' Resting (Device.idle microseconds) Resting :=
  alike_of_twins fun _ _ hidle => ⟨_, ends_idle .., .of_toggleClock hidle.unarmed _⟩

theorem alike_setClockFrequency (hertz : UInt32) :
    Alike filter filter' Resting (Host.setClockFrequency hertz) Resting := by
  rintro one other ⟨htwins, hidle⟩
  exact ⟨_, _, _, ends_setClockFrequency .., ends_setClockFrequency ..,
    ⟨⟨htwins.lasting_eq, htwins.countdown_eq, htwins.erased_eq⟩, rfl, htwins.slept_eq⟩,
    hidle.uncounted, hidle.unarmed⟩

theorem alike_sleep (milliseconds : UInt32) :
    Alike filter filter' Resting (Host.sleep milliseconds) Resting := by
  rintro one other ⟨htwins, hidle⟩
  exact ⟨_, _, _, ends_sleep .., ends_sleep ..,
    ⟨⟨htwins.lasting_eq, htwins.countdown_eq, htwins.erased_eq⟩, htwins.frequency_eq,
      congrArg (· + milliseconds.toNat) htwins.slept_eq⟩,
    hidle.uncounted, hidle.unarmed⟩

/-- A read of the status takes no time. -/
theorem Ends.time_readStatus {sim after : Simulator} {result : Except Error Status}
    (h : Ends filter Device.readStatus sim result after) :
    after.frequency = sim.frequency ∧ after.slept = sim.slept := by
  let taken := sim.took Instruction.readStatus.opcode
  have htaken : taken.frequency = sim.frequency ∧ taken.slept = sim.slept := by
    show (sim.instruct _).frequency = _ ∧ (sim.instruct _).slept = _
    rw [instruct, Instruction.ofOpcode?_opcode]
    exact time_execute ..
  obtain rfl := h.eq_of_readStatus
  obtain ⟨_, _, _, _, _, _, _, _, _, hframe, -⟩ := scan_frame taken
    ⟨some [0xFF, 0xFF, 0xFF, 0xFF], some 4, 32, .runTestIdle⟩
  rw [hframe]
  exact htaken

/-- A read for the log leaves a twin of a device at rest. -/
theorem alike_logStatus (occasion : String) :
    Alike filter filter' Resting (Device.logStatus occasion) Resting := by
  refine alike_of_twins fun filter sim hidle => ?_
  obtain ⟨-, hends⟩ | ⟨-, _, after, hread, hends⟩ := ends_logStatus_cases filter sim occasion
  · exact ⟨sim, hends, .refl sim⟩
  · obtain ⟨_, hread', htraffic⟩ := ends_readStatus_of_idle filter hidle.uncounted
    obtain ⟨-, rfl⟩ := hread.unique hread'
    exact ⟨_, hends, htraffic, hread.time_readStatus.1, hread.time_readStatus.2⟩

/-- An instruction that is sent brings twins in step. -/
theorem alike_sendOpcode (code : UInt8) :
    Alike filter filter' Twins (Device.sendOpcode code) InStep := by
  have hshift : Alike filter filter' Twins (Host.shiftIr [code] 8) InStep :=
    fun one other htwins => ⟨_, _, _, rfl, rfl, htwins.shiftIr [code] 8⟩
  exact hshift.bind fun _ => alike_of_heedless (sequential_heedless.toggleClock _)

/-- An instruction that begins no erase leaves devices at rest, and brings them in step. -/
theorem alike_send {instruction : Instruction}
    (h : instruction ∉ [Instruction.eraseSram, .flashErase]) :
    Alike filter filter' Resting (Device.send instruction) Attuned := by
  simp only [List.mem_cons, List.not_mem_nil, or_false, not_or] at h
  exact (alike_sendOpcode _).idle (Host.sends_send instruction) (by simp [Ne.symm h.1])
    (by simp [Ne.symm h.2])

/-- Devices in step take a scan into the same register, and answer it alike. -/
theorem alike_shiftDr (given : Scan) :
    Alike filter filter' Attuned (Host.shiftDr given) Attuned :=
  alike_of_silent (sequential_heedless.shiftDr given) (Host.sends_shiftDr given)

/-- A register is read by an instruction first, so that twins give the same answer. -/
theorem alike_readRegister (code : UInt8) :
    Alike filter filter' Twins (Device.readRegister code) InStep :=
  (alike_sendOpcode code).bind fun _ =>
    (alike_of_heedless (sequential_heedless.shiftDr _)).bind fun _ => alike_pure _

/-- Twins show the same status. -/
theorem alike_readStatus : Alike filter filter' Twins Device.readStatus InStep :=
  (alike_readRegister _).bind fun _ => alike_pure _

/-- A wait reads the status of either device as often as that of the other. -/
theorem alike_awaitStatus (mask expected : Status) (limit : Nat) :
    Alike filter filter' Twins (Device.awaitStatus mask expected limit) InStep := by
  induction limit with
  | zero => exact (alike_log _ _).bind fun _ => alike_throw_of_twins (fun _ _ => id) _
  | succ limit ih =>
    refine alike_readStatus.bind fun status => (alike_log _ _).bind fun _ => ?_
    split
    · exact alike_pure _
    · exact ih.strengthen fun _ _ hstep => hstep.toTwins

/-- Twins at rest open their gates in the same number of looks. -/
theorem alike_enableConfig (limit : Nat) :
    Alike filter filter' Resting (Device.enableConfig limit) Attuned :=
  (alike_send (by decide)).next fun _ =>
    (alike_awaitStatus _ _ _).idle (Host.sends_awaitStatus _ _ _) (by decide) (by decide)

/-- Devices are at rest when the gate has closed, also if an erase of the embedded flash was under
way. -/
theorem alike_closeGate (limit : Nat) :
    Alike filter filter' (Tracked Twins (·.eraseCountdown? = none)) (Device.disableConfig limit)
      Attuned := by
  have hsend : ∀ instruction, Alike filter filter' Twins (Device.send instruction) Twins :=
    fun instruction => (alike_sendOpcode _).weaken fun _ _ hstep => hstep.toTwins
  have hclose : Alike filter filter' Twins (Device.disableConfig limit) InStep :=
    (hsend _).bind fun _ => (hsend _).bind fun _ => alike_awaitStatus _ _ _
  exact hclose.track fun _ _ _ hnone hends => hends.idle_of_disableConfig hnone

/-- Twins at rest close their gates in the same number of looks. -/
theorem alike_disableConfig (limit : Nat) :
    Alike filter filter' Resting (Device.disableConfig limit) Attuned :=
  (alike_closeGate limit).strengthen fun _ _ hpre => ⟨hpre.1, hpre.2.uncounted⟩

/-- A read of the status by devices at rest. -/
theorem alike_showStatus : Alike filter filter' Resting Device.readStatus Attuned :=
  alike_readStatus.idle Host.sends_readStatus (by decide) (by decide)

theorem alike_reload : Alike filter filter' Resting Device.reload Attuned :=
  (alike_send (by decide)).next fun _ => alike_send (by decide)

/-- Twins give the same usercode, and the verdict on it is the same. -/
theorem alike_checkUsercode (image : Image) :
    Alike filter filter' Resting (Device.checkUsercode image) Attuned := by
  have hread : Alike filter filter' Resting Device.readUsercode Attuned :=
    (alike_readRegister _).idle Host.sends_readUsercode (by decide) (by decide)
  refine hread.bind fun usercode => ?_
  split
  · exact (alike_log _ _).bind fun _ => alike_pure _
  · exact (alike_log _ _).bind fun _ => (alike_log _ _).bind fun _ => alike_pure _

end Calls

/-! ## Memories -/

/-- The status is read for the log before the erase begins and after it has ended, and only by the
host itself in between. -/
theorem alike_eraseSram (limit : Nat) :
    Alike filter filter' Resting (Device.Sram.erase limit) Resting := by
  have hbegin : Alike filter filter' Resting (Device.send .eraseSram) (Tracked InStep Pending) := by
    refine (alike_sendOpcode _).track fun sim _ _ hidle hends => ?_
    obtain ⟨-, rfl⟩ := (ends_send filter sim .eraseSram).unique hends
    exact (traffic_took sim .eraseSram).pending hidle.pending
  have hpause : Alike filter filter' (Tracked Twins Pending) (Device.send .noop)
      (Tracked InStep Pending) := by
    refine (alike_sendOpcode _).track fun sim _ _ hpending hends => ?_
    obtain ⟨-, rfl⟩ := (ends_send filter sim .noop).unique hends
    exact (traffic_took sim .noop).pending hpending
  have hwait : Alike filter filter' (Tracked Twins Pending)
      (Device.awaitStatus (Device.only .memoryErase) (Device.only .memoryErase) limit) Attuned :=
    (alike_awaitStatus _ _ _).track fun _ _ _ hpending hends => hends.idle_of_awaitErased hpending
  refine (alike_log _ _).bind fun _ => (alike_logStatus _).bind fun _ => ?_
  refine (alike_enableConfig _).next fun _ => hbegin.next fun _ => hpause.next fun _ => ?_
  -- The end of the erase has been reported, so the device is at rest from here on.
  refine hwait.next fun _ => (alike_send (by decide)).next fun _ => ?_
  refine (alike_send (by decide)).next fun _ => (alike_disableConfig _).next fun _ => ?_
  refine (alike_logStatus _).bind fun _ => alike_showStatus.next fun status => ?_
  split
  · exact (alike_log _ _).bind fun _ => alike_throw _
  · exact alike_log _ _

/-- The status is read for the log before and after a load, but not between the instruction that
selects the SRAM and the scans that fill it. -/
theorem alike_loadSram (image : Image) :
    Alike filter filter' Resting (Device.Sram.load image) Resting := by
  have hstream : ∀ sizes sent data,
      Alike filter filter' Attuned (Device.Sram.stream sizes sent data) Attuned :=
    fun sizes sent data =>
      alike_of_silent (sequential_heedless.stream Host.heedless_progress sizes sent data)
        (Host.sends_stream sizes sent data)
  refine (alike_log _ _).bind fun _ => (alike_logStatus _).bind fun _ => ?_
  refine (alike_send (by decide)).next fun _ => (alike_send (by decide)).next fun _ => ?_
  -- The scans need the devices in step: they go where the instruction before them says.
  refine (alike_send (by decide)).bind fun _ => ((hstream _ _ _).reporting _ _).next fun _ => ?_
  refine (alike_send (by decide)).bind fun _ => (alike_shiftDr _).next fun _ => ?_
  refine (alike_send (by decide)).next fun _ => (alike_send (by decide)).next fun _ => ?_
  refine (alike_send (by decide)).next fun _ => (alike_logStatus _).bind fun _ => ?_
  refine alike_showStatus.next fun status => ?_
  split
  · exact alike_log _ _
  · exact (alike_log _ _).bind fun _ => alike_throw _

/-- Nothing is read for the log while an attempt is under way. -/
theorem alike_attemptErase (profile : Profile) (limit : Nat) :
    Alike filter filter' Resting (Device.EmbeddedFlash.attemptErase profile limit) Resting := by
  have hbegin : Alike filter filter' Resting (Device.send .flashErase)
      (Tracked InStep (·.eraseCountdown? = none)) :=
    ((alike_sendOpcode _).uncounted (Host.sends_send .flashErase) (by decide)).strengthen
      fun _ _ hpre => ⟨hpre.1, hpre.2.uncounted⟩
  -- The pulses count in one state of the TAP controller, in which both devices have to be.
  have hpulses : ∀ {program : Host Unit}, program.Heedless → Host.Sends [] program →
      Alike filter filter' (Tracked InStep (·.eraseCountdown? = none)) program
        (Tracked InStep (·.eraseCountdown? = none)) :=
    fun hheedless hsends => (alike_of_heedless hheedless).uncounted hsends List.not_mem_nil
  refine (alike_logStatus _).bind fun _ => (alike_enableConfig _).next fun _ => ?_
  refine hbegin.bind fun _ => ?_
  refine (hpulses (sequential_heedless.setState _) (Host.sends_setState _)).bind fun _ => ?_
  refine (hpulses (sequential_heedless.pulse _) (Host.sends_pulse _)).bind fun _ => ?_
  refine (hpulses (sequential_heedless.idle _) (Host.sends_idle _)).next fun _ => ?_
  -- The gate closes upon the attempt.
  refine (alike_closeGate _).next fun _ => alike_flush.bind fun _ => ?_
  exact (alike_sleep _).bind fun _ => alike_showStatus.loosen

/-- Twins take the same number of attempts: each ends with the status that decides on the next. -/
theorem alike_tryErase (profile : Profile) (limit left made : Nat) :
    Alike filter filter' Resting (Device.EmbeddedFlash.tryErase profile limit left made)
      Resting := by
  -- On the attempts that are left: each begins and ends with the device at rest.
  induction left generalizing made with
  | zero => exact alike_pure _
  | succ left ih =>
    refine (alike_attemptErase _ _).bind fun status => ?_
    refine (alike_log _ _).bind fun _ => (alike_progress _).bind fun _ => ?_
    split
    · exact ih _
    · exact alike_pure _

/-- An erase of the embedded flash takes the same course on twins at rest. -/
theorem alike_eraseFlash (profile : Profile) (limit : Nat) :
    Alike filter filter' Resting (Device.EmbeddedFlash.erase profile limit) Resting := by
  unfold Device.EmbeddedFlash.erase
  refine alike_showStatus.next fun status => ?_
  extract_lets finish attempts
  have hattempts : ∀ u, Alike filter filter' Resting (attempts u) Resting := by
    intro _
    refine (alike_log _ _).bind fun _ => ?_
    refine ((alike_tryErase _ _ _ _).reporting _ _).bind fun _ => ?_
    refine alike_showStatus.next fun status => ?_
    split
    · exact (alike_log _ _).bind fun _ => (alike_throw _).bind fun _ => alike_log _ _
    · exact alike_log _ _
  split
  · exact (alike_eraseSram _).bind hattempts
  · exact hattempts ()

/-- Twins at rest store the same page, as the scans of its words go through a register that was just
selected. -/
theorem alike_writePage (delays : Device.EmbeddedFlash.Delays) (address : UInt32) (data : Bytes) :
    Alike filter filter' Resting (Device.EmbeddedFlash.writePage delays address data) Resting := by
  have hwords : ∀ delay words,
      Alike filter filter' Attuned (Device.EmbeddedFlash.writeWords delay words) Attuned :=
    fun delay words =>
      alike_of_silent (sequential_heedless.writeWords delay words)
        (Host.sends_writeWords delay words)
  have hidle : ∀ microseconds,
      Alike filter filter' Attuned (Device.idle microseconds) Attuned :=
    fun microseconds =>
      alike_of_silent (sequential_heedless.idle microseconds) (Host.sends_idle microseconds)
  unfold Device.EmbeddedFlash.writePage
  extract_lets page
  have hpage : ∀ u, Alike filter filter' Resting (page u) Resting := by
    intro _
    refine (alike_send (by decide)).next fun _ => (alike_send (by decide)).next fun _ => ?_
    refine (alike_send (by decide)).bind fun _ => (alike_shiftDr _).bind fun _ => ?_
    exact (hidle _).bind fun _ => (hwords _ _).bind fun _ => (hidle _).loosen
  split
  · exact (alike_idle _).bind hpage
  · exact hpage ()

theorem alike_writePages (delays : Device.EmbeddedFlash.Delays) (base : UInt32)
    (pages : List Bytes) (index : Nat) :
    Alike filter filter' Resting (Device.EmbeddedFlash.writePages delays base pages index)
      Resting := by
  induction pages generalizing index with
  | nil => exact alike_pure _
  | cons data pages ih =>
    exact (alike_writePage _ _ _).bind fun _ => (alike_progress _).bind fun _ => ih _

/-- All that is read for the log is read before the first page and after the gate has closed behind
the last. -/
theorem alike_writeFlash (profile : Profile) (limit : Nat) (base : UInt32) (image : Image) :
    Alike filter filter' Resting (Device.EmbeddedFlash.write profile limit base image) Resting := by
  refine (alike_log _ _).bind fun _ => (alike_logStatus _).bind fun _ => ?_
  refine ((alike_writePages _ _ _ _).reporting _ _).bind fun _ => ?_
  refine ((alike_disableConfig _).rethrow _ _).next fun _ => (alike_logStatus _).bind fun _ => ?_
  refine alike_reload.next fun _ => (alike_logStatus _).bind fun _ => ?_
  refine alike_flush.bind fun _ => (alike_sleep _).bind fun _ => ?_
  refine (alike_logStatus _).bind fun _ => alike_showStatus.next fun status => ?_
  split
  · exact alike_log _ _
  · exact (alike_log _ _).bind fun _ => alike_throw _

/-! ## Sessions -/

section Sessions

variable (session : Session)

theorem alike_verifyUsercode (image : Image) :
    Alike filter filter' Resting (session.verifyUsercode image) Resting := by
  unfold Session.verifyUsercode
  split
  · exact alike_pure _
  · exact (alike_checkUsercode image).loosen

theorem alike_programSram (image : Image) :
    Alike filter filter' Resting (session.programSram image) Resting := by
  unfold Session.programSram
  refine (alike_logStatus _).bind fun _ => ?_
  extract_lets load
  have hload : ∀ u, Alike filter filter' Resting (load u) Resting := fun _ =>
    (alike_eraseSram _).bind fun _ => (alike_loadSram _).bind fun _ =>
      (alike_verifyUsercode session _).bind fun _ => (alike_logStatus _).bind fun _ => alike_pure _
  split
  · exact alike_reload.next fun _ => (alike_setState _).bind fun _ =>
      (alike_toggleClock _).bind hload
  · exact hload ()

/-- A session that rewrites the embedded flash takes the same course on twins at rest. -/
theorem alike_programEmbeddedFlash (image : Image) :
    Alike filter filter' Resting (session.programEmbeddedFlash image) Resting := by
  have hnothing : Alike filter filter' Resting (Device.sendOpcode 0x00) Attuned :=
    (alike_sendOpcode _).idle (Host.sends_sendOpcode _) (by decide) (by decide)
  unfold Session.programEmbeddedFlash
  refine (alike_setClockFrequency _).bind fun _ => ?_
  refine (alike_send (by decide)).next fun _ => hnothing.next fun _ => ?_
  refine (alike_setState _).bind fun _ => alike_showStatus.next fun status => ?_
  -- The branches share what follows them, which is treated from its end on.
  extract_lets finish warn write
  have hfinish : ∀ u, Alike filter filter' Resting (finish u) Resting := fun _ =>
    (alike_verifyUsercode session _).bind fun _ => (alike_logStatus _).bind fun _ => alike_pure _
  have hwarn : ∀ u, Alike filter filter' Resting (warn u) Resting := by
    intro _
    unfold warn
    split
    · exact (alike_log _ _).bind hfinish
    · exact hfinish ()
  have hwrite : ∀ u, Alike filter filter' Resting (write u) Resting := by
    intro _
    refine (alike_eraseFlash _ _).bind fun _ => (alike_writeFlash _ _ _ _).bind fun _ => ?_
    split
    · exact (alike_writeFlash _ _ _ _).bind hwarn
    · exact hwarn ()
  split
  · exact (alike_log _ _).bind fun _ => (alike_logStatus _).bind fun _ =>
      (alike_throw _).bind hwrite
  · exact hwrite ()

theorem alike_erase : Alike filter filter' Resting session.erase Resting := by
  unfold Session.erase
  split
  · exact alike_eraseSram _
  · split
    · exact alike_throw _
    · split
      · exact alike_throw _
      · exact (alike_setClockFrequency _).bind fun _ => alike_eraseFlash _ _

/-- Without a chip driver, whose traffic is not known, a session programs twins at rest alike. -/
theorem alike_program (offset : UInt32) (h : session.Driverless) :
    Alike filter filter' Resting (session.program offset) Resting := by
  unfold Session.program
  cases himage : session.job.image? with
  | none => exact alike_pure _
  | some image =>
    cases htarget : session.job.target with
    | sram => exact alike_programSram session image
    | flash =>
      dsimp only
      split
      · exact (alike_log _ _).bind fun _ => alike_throw _
      · split
        · rename_i hexternal
          rw [h htarget hexternal]
          exact alike_throw _
        · exact alike_programEmbeddedFlash session image

end Sessions

/-! ## Operations -/

/-- Every operation ends alike on twins at rest, whatever is recorded of it. -/
theorem alike_operation {program : Host α} (h : Operation program) :
    Alike filter filter' Resting program Resting := by
  cases h with
  | eraseSram limit => exact alike_eraseSram limit
  | loadSram image => exact alike_loadSram image
  | eraseFlash profile limit => exact alike_eraseFlash profile limit
  | writeFlash profile limit base image => exact alike_writeFlash profile limit base image
  | checkUsercode image => exact (alike_checkUsercode image).loosen
  | reset => exact alike_reload.loosen
  | erase session => exact alike_erase session
  | program session offset h => exact alike_program session offset h

/-- Whatever is recorded of an operation, on a device at rest it has the same result, and leaves the
device the same but for the marks of traffic: the status flags, the memories with their scans, pages
and erases, the usercode, the clock frequency, the time that has passed and a countdown that may
still be running. -/
theorem unmarked_run {sim : Simulator} {program : Host α} (h : Operation program) (hidle : sim.Idle)
    (filter filter' : LogFilter) :
    (Host.run cable filter' program sim).result = (Host.run cable filter program sim).result ∧
      (Host.run cable filter' program sim).device.unmarked =
        (Host.run cable filter program sim).device.unmarked := by
  have halike : Alike filter filter' Resting program Resting := alike_operation h
  obtain ⟨result, one, other, hone, hother, hafter⟩ := halike ⟨.refl sim, hidle⟩
  have htwins : Twins one other := by
    cases result with
    | ok value => exact hafter.1
    | error error => exact hafter
  obtain ⟨hresult, hdevice⟩ := hone.run_eq
  obtain ⟨hresult', hdevice'⟩ := hother.run_eq
  exact ⟨hresult'.trans hresult.symm, by rw [hdevice, hdevice', htwins.unmarked_eq]⟩

/-- A device that runs a design from its flash is programmed, and needs two attempts to erase the
flash: a host that logs has sent it nine instructions more, and made the same of it. -/
theorem unmarked_run_flash :
    let sim := (powerUp { stubbornErases := 1 }).preload 0 Device.EmbeddedFlash.autobootSignature
    let image := (Bitstream.ofData [1, 2, 3]).toImage
    let session := Session.ofJob 0x0900281B { target := .flash, image? := some image }
    let silent := Host.run cable none (session.program 0) sim
    let logged := Host.run cable (some .debug) (session.program 0) sim
    (logged.result = silent.result ∧ logged.device.unmarked = silent.device.unmarked) ∧
      silent.result = .ok (.differs 0 1026) ∧
      logged.device.history.size = silent.device.history.size + 9 := by
  refine ⟨?_, by decide +kernel⟩
  exact unmarked_run (.program (Session.ofJob ..) 0 fun _ _ => rfl) ⟨rfl, rfl⟩ none (some .debug)

end Simulator

end FpgaProgrammer
