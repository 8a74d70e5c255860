import FpgaProgrammer.Proofs.Calls.EraseAttempts
import FpgaProgrammer.Proofs.Programming.FlashErase

/-!
# Erasing the flash of a stubborn device

A simulated device may ignore attempts to erase its embedded flash until it has logged enough of
them. As long as there is something to boot from, a design comes up after an ignored attempt, so the
host tries again, up to a hundred times.

* `Host.timesSent` — how often an instruction was sent in a run.
* `armed_configDisable_of_ignored` — what an ignored attempt leaves: one more entry in the log of
  the device, and a design that runs.
* `Simulator.attemptsNeeded`, `plays_tryErase` — the attempts stop at the one that takes.
* `eraseFlash_stubborn` — how many attempts an erase makes, and what comes of them.
-/

namespace FpgaProgrammer

namespace Host

/-! ## Instructions that are sent -/

/-- How often an instruction was sent. -/
def timesSent (instruction : Instruction) (exchanges : List (Exchange Request Request.Answer)) :
    Nat :=
  (callsOf exchanges).countP fun call => (Request.cable call).instruction? = some instruction

variable {α : Type} {instruction : Instruction}
  {exchanges : List (Exchange Request Request.Answer)}

/-- An instruction was sent in a sequence as often as in its parts together. -/
@[simp]
theorem timesSent_append (first second : List (Exchange Request Request.Answer)) :
    timesSent instruction (first ++ second) =
      timesSent instruction first + timesSent instruction second := by
  simp [timesSent]

/-- A program that does not send an instruction never does. -/
theorem timesSent_of_sends {allowed : List Instruction} {program : Host α}
    {result : Except Error α} (hsends : Sends allowed program) (hnot : instruction ∉ allowed)
    (hruns : Runs program exchanges result) : timesSent instruction exchanges = 0 := by
  apply List.countP_eq_zero.mpr
  intro call hcall hsent
  exact hnot (hsends.mem_of_call hruns hcall (by simpa using hsent))

/-- An attempt to erase the flash sends one instruction to do so. -/
theorem timesSent_attempt {filter : LogFilter} {profile : Profile} {status : Status}
    (h : Attempt filter profile (calling exchanges) status) :
    timesSent .flashErase exchanges = 1 := by
  let erases (call : CableCall) : Bool :=
    (Request.cable call).instruction? = some Instruction.flashErase
  -- Of the calls that an attempt is made of, only those that send the instruction itself count.
  have hlook : lookCalls.countP erases = 0 := by decide
  have hlog : (logCalls filter).countP erases = 0 := by
    unfold logCalls
    split
    · exact hlook
    · rfl
  have hlooks : ∀ looks, (looksCalls looks).countP erases = 0 := by
    intro looks
    simp [looksCalls, List.countP_flatten, hlook]
  have hpulses : ∀ count, (pulseCalls count).countP erases = 0 := by
    intro count
    simp [pulseCalls, List.countP_flatten, erases, Request.instruction?]
  have hidle : ∀ hertz, (idleCalls hertz 150000).countP erases = 0 := by
    intro hertz
    simp [idleCalls, erases, Request.instruction?]
  have hsends : (sendCalls .configEnable).countP erases = 0 ∧
      (sendCalls .flashErase).countP erases = 1 ∧
      (sendCalls .configDisable).countP erases = 0 ∧ (sendCalls .noop).countP erases = 0 := by
    decide
  have hothers : [CableCall.setState .runTestIdle].countP erases = 0 ∧
      [CableCall.flush, .sleep 500].countP erases = 0 := by
    decide
  obtain ⟨opening, hertz, closing, before, look, hsplit, hcalls, hshown⟩ := h
  -- The erase stands once in the list of calls, so the counts add up to one.
  show (callsOf exchanges).countP erases = 1
  rw [← callsOf_calling, hsplit, callsOf_append, hcalls, hshown.callsOf_eq, attemptCalls]
  simp only [List.countP_append, hlook, hlog, hlooks, hpulses, hidle, hsends, hothers]

end Host

namespace Simulator

open Host (timesSent timesSent_append timesSent_of_sends)

variable {filter : LogFilter} {sim after : Simulator} {limit : Nat}
  {exchanges : List (Exchange Request Request.Answer)} {result : Except Error Unit}

/-! ## Attempts that are ignored -/

/-- The device after an attempt that it ignored, while there is something to boot from. -/
def ignored (sim : Simulator) (pulses : Nat) : Simulator :=
  { sim with
    editMode := false
    eraseArmed := false
    pulses
    eraseLog := sim.eraseLog.push pulses
    doneFinal := true
    gowinValid := true }

/-- An attempt that is ignored lets the old design come up again. -/
theorem armed_configDisable_of_ignored {pulses : Nat} (hunloaded : sim.sramValid = false)
    (hboot : sim.hasBootSource = true) (hignored : ¬ (sim.armed pulses).EraseTakes) :
    (sim.armed pulses).execute .configDisable = sim.ignored pulses := by
  dsimp only [execute]
  rw [finishErase_of_not_takes { sim.armed pulses with editMode := false } rfl hignored,
    startLoaded]
  refine (if_neg (ne_true_of_eq_false hunloaded)).trans ?_
  show { sim.ignored pulses with
    doneFinal := sim.hasBootSource, gowinValid := sim.hasBootSource } = sim.ignored pulses
  rw [hboot]
  rfl

/-- The attempts that it takes until the device has logged enough of them. -/
def attemptsNeeded (sim : Simulator) : Nat :=
  max 1 (sim.config.stubbornErases + 1 - sim.eraseLog.size)

/-- The pulses of an attempt are enough, so it takes exactly if the log is long enough. -/
theorem eraseTakes_armed_iff :
    (sim.armed sim.profile.erasePulses).EraseTakes ↔
      sim.config.stubbornErases ≤ sim.eraseLog.size :=
  ⟨fun h => h.2, fun h => ⟨Nat.le_refl _, h⟩⟩

/-! ## What attempts leave -/

/-- What at most `left` attempts leave. -/
structure Attempted (sim : Simulator) (left : Nat) (after : Simulator) : Prop where
  /-- Each attempt that was made is in the log, with its pulses. -/
  eraseLog_eq : after.eraseLog = sim.eraseLog ++
    Array.replicate (min left sim.attemptsNeeded) sim.profile.erasePulses
  /-- If there were enough of them, no page is left and no design runs. -/
  emptied : sim.attemptsNeeded ≤ left →
    after.pages = ∅ ∧ after.doneFinal = false ∧ after.gowinValid = false
  /-- Otherwise the pages are as they were, and a design runs unless no attempt was made. -/
  kept : left < sim.attemptsNeeded →
    after.pages = sim.pages ∧ (0 < left ∨ sim.doneFinal = true → after.doneFinal = true)

namespace Attempted

variable {middle : Simulator} {left : Nat}

/-- Where no attempt is made, nothing changes. -/
theorem none (sim : Simulator) : Attempted sim 0 sim where
  eraseLog_eq := by simp
  emptied hneeded := absurd (Nat.le_trans (Nat.le_max_left ..) hneeded) (by decide)
  kept _ := ⟨rfl, fun hdone => hdone.resolve_left (Nat.lt_irrefl 0)⟩

/-- An attempt that takes is the only one. -/
theorem taken (hlog : sim.config.stubbornErases ≤ sim.eraseLog.size)
    (h : Watched (sim.flashErased sim.profile.erasePulses) after) :
    Attempted sim (left + 1) after := by
  have hneeded : sim.attemptsNeeded = 1 := by
    unfold attemptsNeeded
    omega
  refine ⟨?_, fun _ => ⟨h.read pages fun _ => rfl, h.read doneFinal fun _ => rfl,
    h.read gowinValid fun _ => rfl⟩, fun hfew => ?_⟩
  · have hone : min (left + 1) 1 = 1 := Nat.min_eq_right (Nat.succ_pos left)
    rw [hneeded, hone, h.read eraseLog fun _ => rfl]
    rfl
  · omega

/-- An attempt that is ignored counts towards those that are needed. -/
theorem ignored (hlog : sim.eraseLog.size < sim.config.stubbornErases)
    (h : Watched (sim.ignored sim.profile.erasePulses) middle)
    (hrest : Attempted middle left after) :
    Attempted sim (left + 1) after := by
  have hconfig : middle.config = sim.config := h.read config fun _ => rfl
  have hpages : middle.pages = sim.pages := h.read pages fun _ => rfl
  have hdone : middle.doneFinal = true := h.read doneFinal fun _ => rfl
  have hlogged : middle.eraseLog = sim.eraseLog.push sim.profile.erasePulses :=
    h.read eraseLog fun _ => rfl
  have hprofile : middle.profile = sim.profile := by
    unfold profile
    rw [hconfig]
  -- The log is one entry longer, so one attempt less is needed.
  have hneeded : sim.attemptsNeeded = middle.attemptsNeeded + 1 := by
    unfold attemptsNeeded
    rw [hconfig, hlogged, Array.size_push]
    omega
  refine ⟨?_, fun henough => hrest.emptied (by omega), fun hfew => ?_⟩
  · rw [hrest.eraseLog_eq, hlogged, hprofile, hneeded, Nat.add_min_add_right]
    simp [Array.replicate_succ', -Array.toList_inj]
  · obtain ⟨hsame, hruns⟩ := hrest.kept (by omega)
    exact ⟨hsame.trans hpages, fun _ => hruns (.inr hdone)⟩

/-- Reads of the status show what was left. -/
theorem watched (h : Attempted sim left middle) (hwatched : Watched middle after) :
    Attempted sim left after := by
  obtain ⟨hlogged, hemptied, hkept⟩ := h
  rw [← hwatched.read eraseLog fun _ => rfl] at hlogged
  rw [← hwatched.read pages fun _ => rfl, ← hwatched.read doneFinal fun _ => rfl,
    ← hwatched.read gowinValid fun _ => rfl] at hemptied
  rw [← hwatched.read pages fun _ => rfl, ← hwatched.read doneFinal fun _ => rfl] at hkept
  exact ⟨hlogged, hemptied, hkept⟩

/-- Where attempts are made, only the log, the pages and the kind of device before them matter. -/
theorem of_same (hconfig : middle.config = sim.config) (hlog : middle.eraseLog = sim.eraseLog)
    (hpages : middle.pages = sim.pages) (hsome : 0 < left) (h : Attempted middle left after) :
    Attempted sim left after := by
  have hneeded : middle.attemptsNeeded = sim.attemptsNeeded := by
    rw [attemptsNeeded, hconfig, hlog]
    rfl
  have hprofile : middle.profile = sim.profile := by
    rw [profile, hconfig]
    rfl
  obtain ⟨hlogged, hemptied, hkept⟩ := h
  rw [hneeded, hprofile, hlog] at hlogged
  rw [hneeded] at hemptied hkept
  rw [hpages] at hkept
  exact ⟨hlogged, hemptied, fun hfew => ⟨(hkept hfew).1, fun _ => (hkept hfew).2 (.inl hsome)⟩⟩

end Attempted

/-! ## The erase -/

/-- The attempts stop at the one that takes, or when no more are allowed. -/
theorem Plays.attempted {left made : Nat}
    (hplays : Plays filter (Device.EmbeddedFlash.tryErase sim.profile limit left made) sim exchanges
      result after)
    (hstuck : sim.config.stuckEditMode = false) (hlimit : 0 < limit)
    (hunloaded : sim.sramValid = false) (hboot : sim.hasBootSource = true) :
    result = .ok () ∧ timesSent .flashErase exchanges = min left sim.attemptsNeeded ∧
      Attempted sim left after := by
  -- On the attempts that are left. The device needs one less of them after each that it ignores, as
  -- it logs the attempt.
  induction left generalizing sim made exchanges with
  | zero =>
    obtain ⟨rfl, rfl⟩ := Host.runs_pure_iff.mp hplays.runs
    have hafter : sim = after := hplays.replay_eq
    exact ⟨rfl, by simp [timesSent], hafter ▸ .none sim⟩
  | succ left ih =>
    obtain ⟨status, attempted, hattempt, hattempted, hdone⟩ :=
      ends_attemptErase filter sim.profile hstuck hlimit
    obtain ⟨tried, _, rfl, htried, hplays⟩ := hplays.rest hattempt
    obtain ⟨_, ⟨⟩, -, hcalls⟩ := htried.runs.of_attemptErase htried.holds (by simp)
    obtain ⟨noted, _, rfl, hnoted, hplays⟩ := hplays.rest (ends_log ..)
    obtain ⟨reported, _, rfl, hreported, hplays⟩ := hplays.rest (ends_progress ..)
    -- Neither the log nor the report of an attempt sends an instruction.
    have hone : ∀ later, timesSent .flashErase (tried ++ (noted ++ (reported ++ later))) =
        1 + timesSent .flashErase later := by
      intro later
      have hnote : timesSent .flashErase noted = 0 :=
        timesSent_of_sends (Host.sends_log _ _) List.not_mem_nil hnoted.runs
      have hreport : timesSent .flashErase reported = 0 :=
        timesSent_of_sends (Host.sends_progress _) List.not_mem_nil hreported.runs
      simp [Host.timesSent_attempt hcalls, hnote, hreport]
    rw [hone]
    by_cases hlog : sim.config.stubbornErases ≤ sim.eraseLog.size
    · rw [armed_configDisable_of_takes hunloaded (eraseTakes_armed_iff.mpr hlog)] at hattempted
      have hclear : attempted.doneFinal = false := hattempted.read doneFinal fun _ => rfl
      rw [if_neg (by rw [hdone, hclear]; decide)] at hplays
      obtain ⟨rfl, rfl⟩ := Host.runs_pure_iff.mp hplays.runs
      have hafter : attempted = after := hplays.replay_eq
      have hneeded : sim.attemptsNeeded = 1 := by
        unfold attemptsNeeded
        omega
      refine ⟨rfl, ?_, hafter ▸ .taken hlog hattempted⟩
      rw [hneeded, Nat.min_eq_right (Nat.succ_pos left)]
      rfl
    · rw [armed_configDisable_of_ignored hunloaded hboot (mt eraseTakes_armed_iff.mp hlog)]
        at hattempted
      have hset : attempted.doneFinal = true := hattempted.read doneFinal fun _ => rfl
      have hconfig : attempted.config = sim.config := hattempted.read config fun _ => rfl
      have hprofile : attempted.profile = sim.profile := by
        unfold profile
        rw [hconfig]
      have hlogged : attempted.eraseLog.size = sim.eraseLog.size + 1 :=
        (congrArg Array.size (hattempted.read eraseLog fun _ => rfl)).trans (Array.size_push ..)
      rw [if_pos (by rw [hdone, hset]), ← hprofile] at hplays
      obtain ⟨hok, hsent, hrest⟩ := ih hplays (by rw [hconfig]; exact hstuck)
        ((hattempted.read sramValid fun _ => rfl).trans hunloaded)
        ((hattempted.read hasBootSource fun _ => rfl).trans hboot)
      refine ⟨hok, ?_, .ignored (Nat.lt_of_not_le hlog) hattempted hrest⟩
      rw [hsent]
      unfold attemptsNeeded
      rw [hconfig, hlogged]
      omega

/-- The attempts, and the look at the status after them that decides how the erase ends. -/
theorem Plays.emptyFlash
    (hplays : Plays filter (Host.emptyFlash sim.profile limit) sim exchanges result after)
    (hstuck : sim.config.stuckEditMode = false) (hlimit : 0 < limit)
    (hunloaded : sim.sramValid = false) (hboot : sim.hasBootSource = true) :
    timesSent .flashErase exchanges = min 100 sim.attemptsNeeded ∧ Attempted sim 100 after ∧
      result = if sim.attemptsNeeded ≤ 100 then .ok () else .error (.eraseFailed .flash) := by
  obtain ⟨noted, _, rfl, hnoted, hplays⟩ := hplays.rest (ends_log ..)
  -- However the attempts end, they end well.
  obtain ⟨_, tried, htry⟩ := Ends.exists_of filter
    (Device.EmbeddedFlash.tryErase sim.profile limit Device.EmbeddedFlash.eraseAttempts 0) sim
  obtain ⟨rfl, -, hattempted⟩ := (Plays.of_ends htry).attempted hstuck hlimit hunloaded hboot
  obtain ⟨reported, _, rfl, hreported, hplays⟩ := hplays.rest (htry.reporting ..)
  obtain ⟨within, hwithin, hcalls⟩ := hreported.of_reporting
  obtain ⟨-, hsent, -⟩ := hwithin.attempted hstuck hlimit hunloaded hboot
  have hreported : timesSent .flashErase reported = min 100 sim.attemptsNeeded := by
    rw [timesSent, hcalls]
    exact hsent
  -- The last look at the status shows whether they were enough.
  obtain ⟨checked, hread, -⟩ := ends_readStatus filter tried
  have hchecked := hread.watched_of_readStatus
  obtain ⟨looked, ending, rfl, hlooked, hplays⟩ := hplays.rest hread
  have hdone : tried.readStatus.1.has .doneFinal = !decide (sim.attemptsNeeded ≤ 100) := by
    rw [has_readStatus _ StatusFlag.noConfusion]
    show tried.doneFinal = _
    by_cases henough : sim.attemptsNeeded ≤ 100
    · simp [henough, (hattempted.emptied henough).2.1]
    · simp [henough, (hattempted.kept (Nat.lt_of_not_le henough)).2 (.inl (by decide))]
  have hquiet : ∀ {allowed : List Instruction} {α : Type} {program : Host α} {sim after : Simulator}
      {result : Except Error α} {exchanges : List (Exchange Request Request.Answer)},
      Plays filter program sim exchanges result after → Host.Sends allowed program →
      Instruction.flashErase ∉ allowed → timesSent .flashErase exchanges = 0 :=
    fun hplays hsends hnot => timesSent_of_sends hsends hnot hplays.runs
  have hnone := hquiet hnoted (Host.sends_log _ _) List.not_mem_nil
  have hnone' := hquiet hlooked Host.sends_readStatus (by decide)
  rw [hdone] at hplays
  by_cases henough : sim.attemptsNeeded ≤ 100
  · rw [if_neg (by simp [henough])] at hplays
    obtain ⟨rfl, rfl⟩ := (ends_log ..).unique hplays.ends
    have hlast := hquiet hplays (Host.sends_log _ _) List.not_mem_nil
    refine ⟨?_, hattempted.watched hchecked, (if_pos henough).symm⟩
    simp [hnone, hreported, hnone', hlast]
  · rw [if_pos (by simp [henough])] at hplays
    obtain ⟨failed, _, rfl, hfailed, hplays⟩ := hplays.rest (ends_log ..)
    have hthrown : Ends filter (throw (.eraseFailed .flash) >>= fun _ : PUnit =>
        Host.log .info "Erase FLASH: DONE") checked (.error (.eraseFailed .flash)) checked :=
      (ends_throw ..).bind_error
    obtain ⟨rfl, rfl⟩ := hthrown.unique hplays.ends
    have hlast := hquiet hfailed (Host.sends_log _ _) List.not_mem_nil
    have hlast' := hquiet hplays ((Host.sends_throw _).bind fun _ => Host.sends_log _ _)
      List.not_mem_nil
    refine ⟨?_, hattempted.watched hchecked, (if_neg henough).symm⟩
    simp [hnone, hreported, hnone', hlast, hlast']

/-- The attempts go in the same way on a device with the same log and the same pages. -/
theorem Plays.emptyFlash_of_same {middle : Simulator}
    (hplays : Plays filter (Host.emptyFlash sim.profile limit) middle exchanges result after)
    (hconfig : middle.config = sim.config) (hlog : middle.eraseLog = sim.eraseLog)
    (hpages : middle.pages = sim.pages) (hstuck : sim.config.stuckEditMode = false)
    (hlimit : 0 < limit) (hunloaded : middle.sramValid = false)
    (hboot : middle.hasBootSource = true) :
    timesSent .flashErase exchanges = min 100 sim.attemptsNeeded ∧ Attempted sim 100 after ∧
      result = if sim.attemptsNeeded ≤ 100 then .ok () else .error (.eraseFailed .flash) := by
  have hprofile : sim.profile = middle.profile := by simp [profile, hconfig]
  have hneeded : middle.attemptsNeeded = sim.attemptsNeeded := by
    simp [attemptsNeeded, hconfig, hlog]
  rw [hprofile] at hplays
  obtain ⟨hsent, hattempted, hresult⟩ :=
    hplays.emptyFlash (by rw [hconfig]; exact hstuck) hlimit hunloaded hboot
  rw [hneeded] at hsent hresult
  exact ⟨hsent, .of_same hconfig hlog hpages (by decide) hattempted, hresult⟩

/-- The erase of a device that has something to boot from and on which nothing is pending. The SRAM
is erased first if a design is running, which sends no instruction to erase the flash. -/
theorem Plays.eraseFlash
    (hplays : Plays filter (Device.EmbeddedFlash.erase sim.profile limit) sim exchanges result
      after)
    (hstuck : sim.config.stuckEditMode = false) (hsettled : sim.Settled)
    (hboot : sim.hasBootSource = true) (hlimit : sim.config.eraseLatency < limit) :
    timesSent .flashErase exchanges = min 100 sim.attemptsNeeded ∧ Attempted sim 100 after ∧
      result = if sim.attemptsNeeded ≤ 100 then .ok () else .error (.eraseFailed .flash) := by
  have hsome : 0 < limit := Nat.zero_lt_of_lt hlimit
  obtain ⟨looked, hlook, -⟩ := ends_readStatus filter sim
  have hlooked := hlook.watched_of_readStatus
  have hconfig : looked.config = sim.config := hlooked.read config fun _ => rfl
  rw [Host.eraseFlash_eq] at hplays
  obtain ⟨first, _, rfl, hfirst, hplays⟩ := hplays.rest hlook
  have hnone : timesSent .flashErase first = 0 :=
    timesSent_of_sends Host.sends_readStatus (by decide) hfirst.runs
  split at hplays
  · -- The erase of the SRAM clears what runs, and nothing that an erase of the flash looks at.
    obtain ⟨emptied, hempty, hemptied⟩ := ends_eraseSram filter looked
      (by rw [hconfig]; exact hstuck) (hconfig ▸ hlimit)
    have hsettled' := hsettled.watched hlooked
    rw [if_neg hsettled'.not_designReturns] at hempty
    have hclosed : looked.cleared.execute .configDisable =
        { looked.cleared with editMode := false } :=
      Settled.configDisable ⟨hsettled'.unarmed, hsettled'.unloaded⟩
    rw [hclosed] at hemptied
    obtain ⟨erasing, later, rfl, herasing, hplays⟩ := hplays.rest hempty
    have hnone' : timesSent .flashErase erasing = 0 :=
      timesSent_of_sends (Host.sends_eraseSram limit) (by decide) herasing.runs
    have hread : ∀ {γ : Type} (field : Simulator → γ), (∀ sim, field (lasting sim) = field sim) →
        (∀ sim, field { cleared sim with editMode := false } = field sim) →
        field emptied = field sim := by
      intro γ field hfield hcleared
      rw [hemptied.watched.read field hfield, hcleared, hlooked.read field hfield]
    rw [timesSent_append, timesSent_append, hnone, hnone', Nat.zero_add, Nat.zero_add]
    exact hplays.emptyFlash_of_same (hread config (fun _ => rfl) fun _ => rfl)
      (hread eraseLog (fun _ => rfl) fun _ => rfl) (hread pages (fun _ => rfl) fun _ => rfl)
      hstuck hsome ((hread sramValid (fun _ => rfl) fun _ => rfl).trans hsettled.unloaded)
      ((hread hasBootSource (fun _ => rfl) fun _ => rfl).trans hboot)
  · rw [timesSent_append, hnone, Nat.zero_add]
    exact hplays.emptyFlash_of_same hconfig (hlooked.read eraseLog fun _ => rfl)
      (hlooked.read pages fun _ => rfl) hstuck hsome
      ((hlooked.read sramValid fun _ => rfl).trans hsettled.unloaded)
      ((hlooked.read hasBootSource fun _ => rfl).trans hboot)

/-- On a device that has something to boot from and on which nothing is pending, an erase of the
embedded flash makes the attempts that the device needs, but no more than a hundred. Each of them is
logged by the device with the pulses of its family. If they are enough, the flash is empty and no
design runs; otherwise the erase fails, and the flash is as it was. -/
theorem eraseFlash_stubborn (hstuck : sim.config.stuckEditMode = false) (hsettled : sim.Settled)
    (hboot : sim.hasBootSource = true) (hlimit : sim.config.eraseLatency < limit)
    (filter : LogFilter) :
    let needed := max 1 (sim.config.stubbornErases + 1 - sim.eraseLog.size)
    let outcome := Host.run cable filter (Device.EmbeddedFlash.erase sim.profile limit) sim
    timesSent .flashErase outcome.exchanges = min 100 needed ∧
      outcome.device.eraseLog =
        sim.eraseLog ++ Array.replicate (min 100 needed) sim.profile.erasePulses ∧
      (needed ≤ 100 → outcome.result = .ok () ∧ outcome.device.pages = ∅ ∧
        outcome.device.doneFinal = false ∧ outcome.device.gowinValid = false) ∧
      (100 < needed → outcome.result = .error (.eraseFailed .flash) ∧
        outcome.device.pages = sim.pages) := by
  intro needed outcome
  have hends : Ends filter (Device.EmbeddedFlash.erase sim.profile limit) sim outcome.result
      outcome.device := .of_run rfl
  obtain ⟨hsent, hattempted, hresult⟩ :=
    (Plays.of_ends hends).eraseFlash hstuck hsettled hboot hlimit
  refine ⟨hsent, hattempted.eraseLog_eq, fun henough => ⟨?_, hattempted.emptied henough⟩,
    fun hfew => ⟨?_, (hattempted.kept hfew).1⟩⟩
  · exact hresult.trans (if_pos henough)
  · exact hresult.trans (if_neg (Nat.not_le_of_lt hfew))

/-- A device that ignores two attempts and boots from its first page is erased by the third. -/
theorem eraseFlash_stubborn_twice :
    let sim := (powerUp { idcode := 0x0100381B, stubbornErases := 2 }).preload 0
      Device.EmbeddedFlash.autobootSignature
    let outcome := Host.run cable none (Device.EmbeddedFlash.erase sim.profile 100) sim
    sim.Settled ∧ sim.hasBootSource = true ∧ timesSent .flashErase outcome.exchanges = 3 ∧
      outcome.device.eraseLog = #[1, 1, 1] ∧ outcome.result = .ok () ∧
      outcome.device.pages = ∅ := by
  intro sim outcome
  have hsettled : sim.Settled := ⟨rfl, rfl⟩
  have hboot : sim.hasBootSource = true := by decide +kernel
  have hlatency : sim.config.eraseLatency < 100 := by decide
  obtain ⟨hsent, hlog, henough, -⟩ := eraseFlash_stubborn rfl hsettled hboot hlatency none
  obtain ⟨hok, hpages, -, -⟩ := henough (by decide)
  exact ⟨hsettled, hboot, hsent, hlog, hok, hpages⟩

end Simulator

end FpgaProgrammer
