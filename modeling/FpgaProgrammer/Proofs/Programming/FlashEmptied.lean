import FpgaProgrammer.Proofs.Programming.FlashErase
import FpgaProgrammer.Proofs.Simulator.Reachable

/-!
# What a successful erase of the embedded flash leaves

An erase of the embedded flash succeeds as soon as no design comes up any more. This is not the same
as an empty flash: a device may ignore an attempt, and if there is nothing in it to boot from, no
design comes up all the same.

* `Kept`: what the erase of the SRAM leaves of the memories, whatever comes of it.
* `Tried`: what an attempt to erase the flash leaves, whether the device ignores it or not.
* `tried_of_eraseFlash`: so does a successful erase, after which no design runs.
* `Erased`: the flash is empty, or nothing was to be booted from it in the first place.
-/

namespace FpgaProgrammer.Simulator

variable {α β : Type} {filter : LogFilter} {sim middle after : Simulator}

/-! ## What is kept while the SRAM is erased -/

/-- The device is of the same kind, its SPI flash is the same, and so are its pages unless all of
them are gone. -/
structure Kept (sim after : Simulator) : Prop where
  /-- The kind of device. -/
  config_eq : after.config = sim.config
  /-- The SPI flash. -/
  flash_eq : after.flash = sim.flash
  /-- The pages of the embedded flash. -/
  pages_eq : after.pages = ∅ ∨ after.pages = sim.pages

namespace Kept

theorem trans (h : Kept sim middle) (h' : Kept middle after) : Kept sim after := by
  refine ⟨h'.config_eq.trans h.config_eq, h'.flash_eq.trans h.flash_eq, ?_⟩
  rcases h'.pages_eq with hnone | hsame
  · exact .inl hnone
  · rw [hsame]
    exact h.pages_eq

/-- A device stays of its family. -/
theorem profile_eq (h : Kept sim after) : after.profile = sim.profile := by
  unfold profile
  rw [h.config_eq]

/-- Traffic and looks at the status leave what is kept. -/
theorem of_watched (h : Watched sim after) : Kept sim after :=
  ⟨h.read config fun _ => rfl, h.read flash fun _ => rfl, .inr (h.read pages fun _ => rfl)⟩

/-- A gate that closes upon an attempt to erase the flash leaves all pages or none. -/
theorem configDisable (sim : Simulator) : Kept sim (sim.execute .configDisable) := by
  refine ⟨config_execute .., flash_configDisable sim, ?_⟩
  have hstart : ∀ sim : Simulator, sim.startLoaded.pages = sim.pages := by
    intro sim
    unfold startLoaded
    split <;> rfl
  dsimp only [execute]
  rw [hstart]
  by_cases harmed : sim.eraseArmed = true
  · by_cases htakes : sim.EraseTakes
    · rw [finishErase_of_takes { sim with editMode := false } harmed htakes]
      exact .inl rfl
    · rw [finishErase_of_not_takes { sim with editMode := false } harmed htakes]
      exact .inr rfl
  · rw [finishErase_of_unarmed { sim with editMode := false }
      (Bool.eq_false_of_not_eq_true harmed)]
    exact .inr rfl

/-- Only a gate that closes touches the pages; for the others this is a look at each. -/
theorem execute (sim : Simulator) (instruction : Instruction) :
    Kept sim (sim.execute instruction) := by
  cases instruction with
  | configDisable => exact configDisable sim
  | checksumEnd =>
    dsimp only [Simulator.execute, latchChecksum]
    split <;> exact ⟨rfl, rfl, .inr rfl⟩
  | configEnable | eraseSram | flashErase | flashProgram =>
    dsimp only [Simulator.execute]
    split <;> exact ⟨rfl, rfl, .inr rfl⟩
  | _ => exact ⟨rfl, rfl, .inr rfl⟩

end Kept

/-- The program leaves what is kept, however it ends. -/
def Keeps (filter : LogFilter) (program : Host α) : Prop :=
  ∀ ⦃sim result after⦄, Ends filter program sim result after → Kept sim after

/-- A sequence leaves what is kept if its parts do, also where the second part is not run. -/
theorem Keeps.bind {program : Host α} {next : α → Host β} (h : Keeps filter program)
    (hnext : ∀ value, Keeps filter (next value)) : Keeps filter (program >>= next) := by
  intro sim result after hends
  rcases hfirst : Host.eval (Host.surroundings cable filter) program sim with
    ⟨error | value, middle⟩
  · have herror : Ends filter (program >>= next) sim (.error error) middle := .bind_error hfirst
    rw [(hends.unique herror).2.symm]
    exact h hfirst
  · exact (h hfirst).trans (hnext value (hends.rest hfirst))

/-- It is enough to know one way in which a program ends. -/
theorem Keeps.of_watched {program : Host α}
    (h : ∀ sim, ∃ result after, Ends filter program sim result after ∧ Watched sim after) :
    Keeps filter program := by
  intro sim result after hends
  obtain ⟨_, after', hends', hwatched⟩ := h sim
  rw [(hends'.unique hends).2]
  exact .of_watched hwatched

theorem keeps_log (level : LogLevel) (text : String) : Keeps filter (Host.log level text) :=
  .of_watched fun sim => ⟨_, _, ends_log .., .refl sim⟩

theorem keeps_throw (error : Error) : Keeps filter (throw error : Host α) :=
  .of_watched fun sim => ⟨_, _, ends_throw .., .refl sim⟩

theorem keeps_logStatus (occasion : String) : Keeps filter (Device.logStatus occasion) :=
  .of_watched fun sim =>
    let ⟨after, hends, hwatched⟩ := ends_logStatus filter sim occasion
    ⟨_, after, hends, hwatched⟩

theorem keeps_readStatus : Keeps filter Device.readStatus :=
  .of_watched fun sim =>
    let ⟨after, hends, htraffic⟩ := ends_readStatus filter sim
    ⟨_, after, hends, (Watched.of_readStatus sim).trans htraffic.watched⟩

/-- An instruction changes the pages only by closing the gate on an erase, and then removes all of
them. -/
theorem keeps_send (instruction : Instruction) : Keeps filter (Device.send instruction) := by
  intro sim result after hends
  rw [((ends_send filter sim instruction).unique hends).2]
  exact (Kept.execute sim instruction).trans (.of_watched (traffic_took sim instruction).watched)

/-- However long a wait takes and however it ends, it leaves what is kept. -/
theorem keeps_awaitStatus (mask expected : Status) (limit : Nat) :
    Keeps filter (Device.awaitStatus mask expected limit) := by
  induction limit with
  | zero => exact (keeps_log ..).bind fun _ => keeps_throw _
  | succ limit ih =>
    refine keeps_readStatus.bind fun status => (keeps_log ..).bind fun _ => ?_
    split
    · exact .of_watched fun sim => ⟨_, _, ends_pure .., .refl sim⟩
    · exact ih

/-- The erase of the SRAM leaves what is kept, also when it times out half way. -/
theorem keeps_eraseSram (limit : Nat) : Keeps filter (Device.Sram.erase limit) := by
  have hawait : ∀ mask expected, Keeps filter (Device.awaitStatus mask expected limit) :=
    fun mask expected => keeps_awaitStatus mask expected limit
  refine (keeps_log ..).bind fun _ => (keeps_logStatus _).bind fun _ => ?_
  -- The gate opens, the erase ends, and the gate closes.
  refine ((keeps_send _).bind fun _ => hawait ..).bind fun _ => ?_
  refine (keeps_send _).bind fun _ => (keeps_send _).bind fun _ => (hawait ..).bind fun _ => ?_
  refine (keeps_send _).bind fun _ => (keeps_send _).bind fun _ => ?_
  refine ((keeps_send _).bind fun _ => (keeps_send _).bind fun _ => hawait ..).bind fun _ => ?_
  refine (keeps_logStatus _).bind fun _ => keeps_readStatus.bind fun status => ?_
  split
  · exact (keeps_log ..).bind fun _ => keeps_throw _
  · exact keeps_log ..

/-! ## What an attempt leaves -/

/-- What attempts to erase the flash leave: either no page, or all of them because the device
ignored every attempt. It then runs a design if it can. -/
structure Tried (sim after : Simulator) : Prop where
  /-- The kind of device. -/
  config_eq : after.config = sim.config
  /-- The SPI flash. -/
  flash_eq : after.flash = sim.flash
  /-- The gate was closed. -/
  settled : after.Settled
  /-- The gate is closed. -/
  gated : after.Gated
  /-- The pages of the embedded flash. -/
  pages_eq : after.pages = ∅ ∨
    (after.pages = sim.pages ∧ after.eraseLog.size ≤ after.config.stubbornErases ∧
      (after.hasBootSource = true → after.doneFinal = true))

theorem Tried.kept (h : Tried sim after) : Kept sim after :=
  ⟨h.config_eq, h.flash_eq, h.pages_eq.imp_right And.left⟩

/-- Attempts may follow whatever keeps the memories, further attempts among it. -/
theorem Kept.tried (h : Kept sim middle) (h' : Tried middle after) : Tried sim after := by
  refine ⟨h'.config_eq.trans h.config_eq, h'.flash_eq.trans h.flash_eq, h'.settled, h'.gated, ?_⟩
  rcases h'.pages_eq with hnone | ⟨hsame, hignored⟩
  · exact .inl hnone
  · rw [hsame]
    rcases h.pages_eq with hnone | hsame'
    · exact .inl hnone
    · exact .inr ⟨hsame', hignored⟩

/-- An attempt gives enough pulses, so the device either takes it or ignores it. -/
theorem tried_armed (sim : Simulator) :
    Tried sim ((sim.armed sim.profile.erasePulses).execute .configDisable) := by
  have hstart : ∀ sim : Simulator, ∃ doneFinal gowinValid powerOnReset,
      sim.startLoaded =
        { sim with sramValid := false, doneFinal, gowinValid, powerOnReset } ∧
      (sim.doneFinal = true → doneFinal = true) := by
    intro sim
    unfold startLoaded
    split
    · exact ⟨_, _, _, rfl, fun _ => rfl⟩
    · rename_i hvalid
      have hunloaded := Bool.eq_false_of_not_eq_true hvalid
      exact ⟨_, _, _, by rw [← hunloaded], id⟩
  let armed := { sim.armed sim.profile.erasePulses with editMode := false }
  have hclosed : (sim.armed sim.profile.erasePulses).execute .configDisable =
    armed.finishErase.startLoaded := rfl
  obtain ⟨_, _, _, hframe, hruns⟩ := hstart armed.finishErase
  refine ⟨config_execute .., flash_configDisable _, settled_configDisable _,
    fun _ => editMode_configDisable _, ?_⟩
  rw [hclosed, hframe]
  by_cases htakes : armed.EraseTakes
  · rw [finishErase_of_takes armed rfl htakes]
    exact .inl rfl
  · rw [finishErase_of_not_takes armed rfl htakes] at hruns ⊢
    refine .inr ⟨rfl, ?_, hruns⟩
    -- The pulses were enough, so it is the number of attempts that was not.
    have hignored : ¬ sim.config.stubbornErases ≤ sim.eraseLog.size :=
      fun hlog => htakes ⟨Nat.le_refl _, hlog⟩
    show (sim.eraseLog.push _).size ≤ sim.config.stubbornErases
    rw [Array.size_push]
    omega

/-- Reads of the status show what was left. -/
theorem Tried.watched (h : Tried sim middle) (hwatched : Watched middle after) :
    Tried sim after := by
  have hconfig : after.config = middle.config := hwatched.read config fun _ => rfl
  have hflash : after.flash = middle.flash := hwatched.read flash fun _ => rfl
  have hpages : after.pages = middle.pages := hwatched.read pages fun _ => rfl
  have hlog : after.eraseLog = middle.eraseLog := hwatched.read eraseLog fun _ => rfl
  have hboot : after.hasBootSource = middle.hasBootSource :=
    hwatched.read hasBootSource fun _ => rfl
  have hdone : after.doneFinal = middle.doneFinal := hwatched.read doneFinal fun _ => rfl
  refine ⟨hconfig.trans h.config_eq, hflash.trans h.flash_eq, h.settled.watched hwatched,
    h.gated.watched hwatched, ?_⟩
  rw [hpages, hlog, hconfig, hboot, hdone]
  exact h.pages_eq

/-- An attempt that returns a status was made on a device that is not stuck. -/
theorem tried_of_attemptErase {limit : Nat} {status : Status} (hgated : sim.Gated)
    (h : Ends filter (Device.EmbeddedFlash.attemptErase sim.profile limit) sim (.ok status)
      after) :
    sim.config.stuckEditMode = false ∧ 0 < limit ∧ Tried sim after ∧
      status.has .doneFinal = after.doneFinal := by
  obtain ⟨logged, hlog, hlogged⟩ := ends_logStatus filter sim "before erase flash"
  obtain ⟨_, _, hopen, -⟩ := (h.rest hlog).of_bind
  obtain ⟨hlimit, hopened⟩ := hopen.of_enableConfig
  -- Were the device stuck, the instruction would have left its gate as it was, that is closed.
  have hstuck : sim.config.stuckEditMode = false := by
    rw [← hlogged.read config fun _ => rfl]
    by_contra hstuck
    rw [Bool.not_eq_false] at hstuck
    have hclosed := ((hgated.watched hlogged).execute .configEnable) (by
      rw [config_execute]
      exact hstuck)
    exact Bool.false_ne_true (hclosed.symm.trans hopened)
  obtain ⟨status', after', hends, hwatched, hdone⟩ :=
    ends_attemptErase filter sim.profile hstuck hlimit
  obtain ⟨hstatus, rfl⟩ := h.unique hends
  obtain rfl := Except.ok.inj hstatus
  exact ⟨hstuck, hlimit, (tried_armed sim).watched hwatched, hdone⟩

/-! ## What a successful erase leaves -/

/-- Attempts come to an end after the first one, or after one that follows on what it left. -/
theorem tried_of_tryErase {limit : Nat} (hgated : sim.Gated) (left made : Nat)
    (h : Ends filter (Device.EmbeddedFlash.tryErase sim.profile limit (left + 1) made) sim (.ok ())
      after) :
    sim.config.stuckEditMode = false ∧ 0 < limit ∧ Tried sim after := by
  induction left generalizing sim made with
  | zero =>
    obtain ⟨status, attempted, hattempt, hrest⟩ := h.of_bind
    obtain ⟨hstuck, hlimit, htried, -⟩ := tried_of_attemptErase hgated hattempt
    have hrest := (hrest.rest (ends_log ..)).rest (ends_progress ..)
    -- With no attempt left, it does not matter what the status shows.
    split at hrest
    all_goals
      rw [((ends_pure filter attempted ()).unique hrest).2]
      exact ⟨hstuck, hlimit, htried⟩
  | succ left ih =>
    obtain ⟨status, attempted, hattempt, hrest⟩ := h.of_bind
    obtain ⟨hstuck, hlimit, htried, -⟩ := tried_of_attemptErase hgated hattempt
    have hrest := (hrest.rest (ends_log ..)).rest (ends_progress ..)
    split at hrest
    · rw [← htried.kept.profile_eq] at hrest
      obtain ⟨-, -, hlast⟩ := ih htried.gated _ hrest
      exact ⟨hstuck, hlimit, htried.kept.tried hlast⟩
    · rw [((ends_pure filter attempted ()).unique hrest).2]
      exact ⟨hstuck, hlimit, htried⟩

/-- Attempts after which the last look at the status shows no design were made on a device that is
not stuck. -/
theorem tried_of_emptyFlash {limit : Nat} (hgated : sim.Gated)
    (h : Ends filter (Host.emptyFlash sim.profile limit) sim (.ok ()) after) :
    sim.config.stuckEditMode = false ∧ 0 < limit ∧ Tried sim after ∧ after.doneFinal = false := by
  obtain ⟨_, tried, htry, hcheck⟩ := (h.rest (ends_log ..)).of_bind
  obtain ⟨hstuck, hlimit, htried⟩ := tried_of_tryErase hgated _ _ htry.of_reporting
  obtain ⟨checked, hread, -⟩ := ends_readStatus filter tried
  have hchecked := hread.watched_of_readStatus
  have hcheck := hcheck.rest hread
  rw [has_readStatus _ StatusFlag.noConfusion] at hcheck
  split at hcheck
  · -- With a design running, the erase fails.
    obtain ⟨_, _, hthrow, -⟩ := (hcheck.rest (ends_log ..)).of_bind
    cases (hthrow.unique (ends_throw ..)).1
  · rename_i hdone
    rw [((ends_log filter checked _ _).unique hcheck).2]
    refine ⟨hstuck, hlimit, htried.watched hchecked, ?_⟩
    exact (hchecked.read doneFinal fun _ => rfl).trans (Bool.eq_false_of_not_eq_true hdone)

/-- An erase that succeeds was made on a device that is not stuck, on which no design runs any
more. -/
theorem tried_of_eraseFlash {limit : Nat} (hgated : sim.Gated)
    (h : Ends filter (Device.EmbeddedFlash.erase sim.profile limit) sim (.ok ()) after) :
    sim.config.stuckEditMode = false ∧ 0 < limit ∧ Tried sim after ∧ after.doneFinal = false := by
  -- The look at the status and the erase of the SRAM keep all that the attempts depend on.
  have hattempts : ∀ {middle : Simulator}, Kept sim middle → middle.Gated →
      Ends filter (Host.emptyFlash sim.profile limit) middle (.ok ()) after →
      sim.config.stuckEditMode = false ∧ 0 < limit ∧ Tried sim after ∧
        after.doneFinal = false := by
    intro middle hkept hgated hends
    rw [← hkept.profile_eq] at hends
    obtain ⟨hstuck, hlimit, htried, hdone⟩ := tried_of_emptyFlash hgated hends
    rw [hkept.config_eq] at hstuck
    exact ⟨hstuck, hlimit, hkept.tried htried, hdone⟩
  rw [Host.eraseFlash_eq] at h
  obtain ⟨looked, hlook, -⟩ := ends_readStatus filter sim
  have hlooked := hlook.watched_of_readStatus
  have hrest := h.rest hlook
  split at hrest
  · obtain ⟨_, emptied, hempty, hends⟩ := hrest.of_bind
    exact hattempts ((Kept.of_watched hlooked).trans (keeps_eraseSram limit hempty))
      ((hgated.watched hlooked).ends hempty) hends
  · exact hattempts (.of_watched hlooked) (hgated.watched hlooked) hrest

/-- The erase from `started` to `ended` left no page, unless there was nothing to boot from and the
device ignored every attempt. The pages are then as they were. -/
def Erased (started ended : Simulator) : Prop :=
  ended.pages = ∅ ∨
    (ended.pages = started.pages ∧ started.hasBootSource = false ∧
      ended.eraseLog.size ≤ ended.config.stubbornErases)

/-- From the moment it starts, a successful erase has emptied the flash, or there was nothing to
boot from and every attempt was ignored. -/
theorem erased_of_eraseFlash {limit : Nat} (hgated : sim.Gated)
    (h : Ends filter (Device.EmbeddedFlash.erase sim.profile limit) sim (.ok ()) after) :
    Erased sim after := by
  obtain ⟨-, -, htried, hdone⟩ := tried_of_eraseFlash hgated h
  refine htried.pages_eq.imp_right fun ⟨hsame, hignored, hboots⟩ => ⟨hsame, ?_, hignored⟩
  have hsource : after.hasBootSource = sim.hasBootSource := by
    unfold hasBootSource isSigned
    rw [hsame, htried.flash_eq]
  rw [← hsource]
  -- If there were something to boot from, it would be running.
  by_contra hboot
  rw [Bool.not_eq_false] at hboot
  exact Bool.false_ne_true (hdone.symm.trans (hboots hboot))

/-! ## Sessions -/

/-- A session that programmed the embedded flash has erased it on the way. -/
theorem runs_erase_of_programEmbeddedFlash {session : Session} {image : Image}
    {check : Device.UsercodeCheck} {exchanges : List (Exchange Request Request.Answer)}
    (h : Host.Runs (session.programEmbeddedFlash image) exchanges (.ok check)) :
    ∃ before erasing rest, exchanges = before ++ erasing ++ rest ∧
      Host.Runs (Device.EmbeddedFlash.erase session.profile session.limit) erasing (.ok ()) := by
  obtain ⟨_, clock, _, rfl, -, h⟩ := h.of_bind
  obtain ⟨_, close, _, rfl, -, h⟩ := h.of_bind
  obtain ⟨_, idle, _, rfl, -, h⟩ := h.of_bind
  obtain ⟨_, state, _, rfl, -, h⟩ := h.of_bind
  obtain ⟨status, look, _, rfl, -, h⟩ := h.of_bind
  -- With another status, the session would have failed.
  extract_lets work at h
  split at h
  · obtain ⟨_, _, _, rfl, -, h⟩ := h.of_bind
    obtain ⟨_, _, _, rfl, -, h⟩ := h.of_bind
    obtain ⟨_, _, _, rfl, hthrow, -⟩ := h.of_bind
    cases (Host.runs_throw_iff.mp hthrow).2
  · obtain ⟨_, erasing, rest, rfl, herase, -⟩ := h.of_bind
    exact ⟨clock ++ close ++ idle ++ state ++ look, erasing, rest, by simp, herase⟩

/-- An erase of the embedded flash that succeeds, be it on its own, as the erase of a session or
on the way of a session that programs the flash, leaves no page, unless the device ignored every
attempt and holds nothing to boot from. -/
theorem eraseFlash_ok (hreach : sim.Reachable) (filter : LogFilter) :
    (∀ limit,
      let outcome := Host.run cable filter (Device.EmbeddedFlash.erase sim.profile limit) sim
      outcome.result = .ok () → Erased sim outcome.device) ∧
    (∀ job : Job, job.target = .flash →
      let outcome := Host.run cable filter (Session.ofJob sim.config.idcode job).erase sim
      outcome.result = .ok () → Erased sim outcome.device) ∧
    (∀ (job : Job) (offset : UInt32) before erasing rest,
      let session := Session.ofJob sim.config.idcode job
      (Host.run cable filter (session.program offset) sim).exchanges = before ++ erasing ++ rest →
      Host.Runs (Device.EmbeddedFlash.erase session.profile session.limit) erasing (.ok ()) →
      Erased (sim.replay filter before) (sim.replay filter (before ++ erasing))) := by
  refine ⟨?direct, ?session, ?within⟩
  case direct =>
    intro limit outcome hok
    exact erased_of_eraseFlash hreach.gated (.of_run hok)
  case session =>
    intro job htarget outcome hok
    have hends : Ends filter _ sim (.ok ()) outcome.device := .of_run hok
    unfold Session.erase at hends
    rw [show (Session.ofJob sim.config.idcode job).job.target = .flash from htarget] at hends
    -- A session that succeeds works on an embedded flash that may be erased.
    dsimp only at hends
    split at hends
    · cases (hends.unique (ends_throw ..)).1
    · split at hends
      · cases (hends.unique (ends_throw ..)).1
      · let clocked : Simulator := { sim with frequency := Session.flashClock }
        have hclocked : Ends filter (Host.setClockFrequency Session.flashClock) sim
            (.ok Session.flashClock) clocked := ends_setClockFrequency ..
        have herase : Ends filter (Device.EmbeddedFlash.erase clocked.profile _) clocked (.ok ())
            outcome.device := hends.rest hclocked
        have hgated : clocked.Gated := hreach.gated
        have herased : Erased clocked outcome.device := erased_of_eraseFlash hgated herase
        exact herased
  case within =>
    intro job offset before erasing rest session hsplit herase
    have hends := Ends.of_stretch hsplit herase
    have hprofile : session.profile = (sim.replay filter before).profile := by
      unfold profile
      rw [config_replay]
      rfl
    rw [hprofile] at hends
    exact erased_of_eraseFlash (hreach.replay before).gated hends

/-- On a device that takes attempts at once, a session that programs the flash erases it. -/
theorem eraseFlash_ok_program :
    let job : Job := { target := .flash, image? := some (Bitstream.ofData [1, 2, 3]).toImage }
    let sim := (powerUp { idcode := 0x0100381B }).preload 64 (List.replicate 256 0)
    let session := Session.ofJob 0x0100381B job
    ∃ before erasing rest,
      (Host.run cable none (session.program 0) sim).exchanges = before ++ erasing ++ rest ∧
      Host.Runs (Device.EmbeddedFlash.erase session.profile session.limit) erasing (.ok ()) ∧
      Erased (sim.replay none before) (sim.replay none (before ++ erasing)) := by
  intro job sim session
  have hok : (Host.run cable none (session.program 0) sim).result = .ok (.differs 0 0x0402) := by
    decide +kernel
  have hruns := Host.runs_run cable none (session.program 0) sim
  rw [hok] at hruns
  obtain ⟨before, erasing, rest, hsplit, herase⟩ := runs_erase_of_programEmbeddedFlash hruns
  have hreach : sim.Reachable := (Reachable.powerUp _).preload 64 _
  exact ⟨before, erasing, rest, hsplit, herase,
    (eraseFlash_ok hreach none).2.2 job 0 before erasing rest hsplit herase⟩

/-- A device that ignores the first attempt, with a page that it does not boot from, is taken for
erased although the page is still there. -/
theorem eraseFlash_ok_ignored :
    let sim := (powerUp { idcode := 0x0100381B, stubbornErases := 1 }).preload 64
      (List.replicate 256 0)
    let outcome := Host.run cable none (Device.EmbeddedFlash.erase sim.profile 100) sim
    sim.Reachable ∧ outcome.result = .ok () ∧
      outcome.device.pages[(64 : UInt32)]? = some (List.replicate 256 0) := by
  intro sim outcome
  refine ⟨(Reachable.powerUp _).preload 64 _, ?_, ?_⟩
  · decide +kernel
  · decide +kernel

end FpgaProgrammer.Simulator
