import FpgaProgrammer.Proofs.Calls.Simulated

/-!
# The attempts of an erase

Over a cable that works, an erase of the embedded flash makes attempts until one of them leaves no
design running, and then looks at the status once more. This look alone decides how the erase ends.

* `Host.Attempt` — the calls of an attempt, and the status that its last look shows.
* `Host.Attempts` — attempts that are made one after the other, as long as a design runs.
* `Runs.of_attemptErase`, `Runs.of_tryErase` — these are the runs that do not time out.
* `run_eraseFlash` — the whole erase, with the erase of the SRAM that goes before it if a design
  is running.
-/

namespace FpgaProgrammer.Host

variable {setting : Setting} {exchanges : List (Exchange Request Request.Answer)}
  {profile : Profile} {limit : Nat}

/-! ## Exchanges with the cable -/

/-- The exchanges with the cable. -/
def calling (exchanges : List (Exchange Request Request.Answer)) :
    List (Exchange Request Request.Answer) :=
  exchanges.filter (·.1.isCall)

@[simp]
theorem calling_nil : calling [] = [] :=
  rfl

@[simp]
theorem calling_append (first second : List (Exchange Request Request.Answer)) :
    calling (first ++ second) = calling first ++ calling second :=
  List.filter_append ..

/-- The calls are made in the exchanges with the cable. -/
@[simp]
theorem callsOf_calling (exchanges : List (Exchange Request Request.Answer)) :
    callsOf (calling exchanges) = callsOf exchanges := by
  unfold callsOf calling
  rw [List.filterMap_filter]
  congr 1
  funext ⟨request, answer⟩
  cases request <;> rfl

/-- Where no call is made, nothing is exchanged with the cable. -/
theorem Follow.calling_eq_nil (h : Follow exchanges []) : calling exchanges = [] := by
  apply List.filter_eq_nil_iff.mpr
  intro exchange hmem
  have hnone := List.filterMap_eq_nil_iff.mp h.calls_eq exchange hmem
  obtain ⟨request, answer⟩ := exchange
  cases request with
  | cable call => cases hnone
  | _ => simp [Request.isCall]

/-- A look at the status is exchanged with the cable. -/
theorem Look.calling_eq {status : Status} (h : Look exchanges status) :
    calling exchanges = exchanges := by
  obtain ⟨captured, rfl, -⟩ := h
  rfl

/-- Every look at the status makes the same calls, whatever status it shows. -/
theorem Look.callsOf_eq {status : Status} (h : Look exchanges status) :
    callsOf exchanges = lookCalls := by
  obtain ⟨captured, rfl, -⟩ := h
  rfl

/-! ## One attempt -/

/-- The calls that give erase pulses. -/
def pulseCalls (count : Nat) : List CableCall :=
  (List.replicate count [.setState .shiftDr, .toggleClock 32, .setState .runTestIdle]).flatten

/-- The calls of an attempt up to its last look at the status: how often the status is looked at
while the gate opens and closes, and at which frequency the clock runs, is left to the device. -/
def attemptCalls (filter : LogFilter) (profile : Profile) (opening : Nat) (hertz : UInt32)
    (closing : Nat) : List CableCall :=
  logCalls filter ++ sendCalls .configEnable ++ looksCalls opening ++ sendCalls .flashErase ++
    [.setState .runTestIdle] ++ pulseCalls profile.erasePulses ++ idleCalls hertz 150000 ++
    sendCalls .configDisable ++ sendCalls .noop ++ looksCalls closing ++ [.flush, .sleep 500]

/-- The exchanges with the cable are those of an attempt, which shows this status in the end. -/
def Attempt (filter : LogFilter) (profile : Profile)
    (exchanges : List (Exchange Request Request.Answer)) (status : Status) : Prop :=
  ∃ opening hertz closing before look, exchanges = before ++ look ∧
    callsOf before = attemptCalls filter profile opening hertz closing ∧ Look look status

/-- Giving erase pulses makes the calls of that many pulses, and succeeds. -/
theorem performs_pulse (count : Nat) :
    Performs setting (Device.EmbeddedFlash.pulse count) (pulseCalls count) := by
  induction count with
  | zero => exact performs_pure _
  | succ count ih =>
    exact (performs_setState _).bind fun _ => (performs_toggleClock _).bind fun _ =>
      (performs_setState _).bind fun _ => ih

/-- An attempt that does not time out. -/
theorem Runs.of_attemptErase {result : Except Error Status}
    (hruns : Runs (Device.EmbeddedFlash.attemptErase profile limit) exchanges result)
    (hholds : setting.Holds exchanges) (hintime : result ≠ .error .timeout) :
    ∃ status, result = .ok status ∧ (∃ calls, Follow exchanges calls) ∧
      Attempt setting.filter profile (calling exchanges) status := by
  -- The calls one after the other. Only while the gate opens or closes can the host time out.
  obtain ⟨_, log, _, rfl, hlog, -, hruns, hholds⟩ := (performs_logStatus _).rest hruns hholds
  obtain ⟨opening, opened, _, -, rfl, hopened, hruns, hholds⟩ :=
    (waits_enableConfig limit).rest hruns hholds hintime
  obtain ⟨_, sent, _, rfl, hsent, -, hruns, hholds⟩ := (performs_send _).rest hruns hholds
  obtain ⟨_, state, _, rfl, hstate, -, hruns, hholds⟩ := (performs_setState _).rest hruns hholds
  obtain ⟨_, pulses, _, rfl, hpulses, -, hruns, hholds⟩ := (performs_pulse _).rest hruns hholds
  obtain ⟨hertz, idle, _, rfl, hidle, hruns, hholds⟩ := hruns.rest_of_idle hholds
  obtain ⟨closing, closed, _, -, rfl, hclosed, hruns, hholds⟩ :=
    (waits_disableConfig limit).rest hruns hholds hintime
  obtain ⟨_, flushed, _, rfl, hflushed, -, hruns, hholds⟩ := performs_flush.rest hruns hholds
  obtain ⟨_, slept, look, rfl, hslept, -, hruns, hholds⟩ := (performs_sleep _).rest hruns hholds
  obtain ⟨hlook, status, rfl⟩ := performs_readStatus hruns hholds
  have hshown := hruns.of_readStatus
  have hbefore := hlog.append (hopened.append (hsent.append (hstate.append (hpulses.append
    (hidle.append (hclosed.append (hflushed.append hslept)))))))
  refine ⟨status, rfl, ⟨_, by simpa using hbefore.append hlook⟩, opening, hertz, closing,
    calling (log ++ (opened ++ (sent ++ (state ++ (pulses ++ (idle ++ (closed ++ (flushed ++
      slept)))))))), look, ?_, ?_, hshown⟩
  · simp [hshown.calling_eq]
  · rw [callsOf_calling, hbefore.calls_eq]
    simp [attemptCalls]

/-! ## Attempts -/

/-- At most `left` attempts, each with the exchanges and the status that it shows in the end.
Another one follows as long as a design runs. -/
structure Attempts (filter : LogFilter) (profile : Profile) (left : Nat)
    (attempts : List (List (Exchange Request Request.Answer) × Status)) : Prop where
  /-- Each of them is an attempt. -/
  each : ∀ attempt ∈ attempts, Attempt filter profile attempt.1 attempt.2
  /-- At least one is made, unless none is allowed. -/
  nonempty : 0 < left → attempts ≠ []
  /-- No more are made than are allowed. -/
  length_le : attempts.length ≤ left
  /-- After all but the last one, a design runs. -/
  earlier : ∀ attempt ∈ attempts.dropLast, attempt.2.has .doneFinal = true
  /-- After the last one none runs, if another one was allowed. -/
  latest : attempts.length < left → ∀ attempt ∈ attempts.getLast?,
    attempt.2.has .doneFinal = false

namespace Attempts

variable {filter : LogFilter} {left : Nat} {status : Status}
  {attempts : List (List (Exchange Request Request.Answer) × Status)}

theorem none : Attempts filter profile 0 [] :=
  ⟨by simp, by simp, Nat.le_refl 0, by simp, by simp⟩

/-- An attempt after which no design runs is the last one. -/
theorem last (h : Attempt filter profile exchanges status)
    (hclear : status.has .doneFinal = false) :
    Attempts filter profile (left + 1) [(exchanges, status)] :=
  ⟨by simpa using h, by simp, by simp, by simp, by simpa using fun _ => hclear⟩

/-- An attempt after which a design runs is followed by others. -/
theorem cons (h : Attempt filter profile exchanges status) (hset : status.has .doneFinal = true)
    (hrest : Attempts filter profile left attempts) :
    Attempts filter profile (left + 1) ((exchanges, status) :: attempts) := by
  refine ⟨List.forall_mem_cons.mpr ⟨h, hrest.each⟩, by simp, ?_, ?_, ?_⟩
  · exact Nat.succ_le_succ hrest.length_le
  · cases attempts with
    | nil => simp
    | cons next attempts => exact List.forall_mem_cons.mpr ⟨hset, hrest.earlier⟩
  · intro hfewer
    have hfewer := Nat.lt_of_succ_lt_succ hfewer
    -- With another one allowed, this one was not the last.
    rw [List.getLast?_cons_of_ne_nil (hrest.nonempty (Nat.zero_lt_of_lt hfewer))]
    exact hrest.latest hfewer

end Attempts

/-- Attempts that do not time out. -/
theorem Runs.of_tryErase {left made : Nat} {result : Except Error Unit}
    (hruns : Runs (Device.EmbeddedFlash.tryErase profile limit left made) exchanges result)
    (hholds : setting.Holds exchanges) (hintime : result ≠ .error .timeout) :
    result = .ok () ∧ (∃ calls, Follow exchanges calls) ∧
      ∃ attempts, Attempts setting.filter profile left attempts ∧
        calling exchanges = attempts.flatMap (·.1) := by
  -- On the attempts that are left: the status after one decides whether another one follows.
  induction left generalizing exchanges made with
  | zero =>
    obtain ⟨rfl, rfl⟩ := runs_pure_iff.mp hruns
    exact ⟨rfl, ⟨[], follow_nil⟩, [], .none, rfl⟩
  | succ left ih =>
    rcases runs_bind_iff.mp hruns with ⟨status, attempt, _, rfl, hattempt, hruns⟩ | ⟨error, rfl, h⟩
    · obtain ⟨hbefore, hholds⟩ := hholds.of_append
      obtain ⟨_, ⟨⟩, ⟨calls, hfollow⟩, htried⟩ := hattempt.of_attemptErase hbefore (by simp)
      replace hholds := hholds hfollow.keeps
      obtain ⟨_, note, _, rfl, hnote, -, hruns, hholds⟩ := (performs_log _ _).rest hruns hholds
      obtain ⟨_, report, _, rfl, hreport, -, hruns, hholds⟩ :=
        (performs_progress _).rest hruns hholds
      have hbefore := hfollow.append (hnote.append hreport)
      split at hruns
      · rename_i hset
        obtain ⟨hok, ⟨rest, hrest⟩, attempts, hattempts, hcalling⟩ := ih hruns hholds
        refine ⟨hok, ⟨_, by simpa using hbefore.append hrest⟩, _, hattempts.cons htried hset, ?_⟩
        simp [hcalling, hnote.calling_eq_nil, hreport.calling_eq_nil]
      · rename_i hclear
        obtain ⟨rfl, rfl⟩ := runs_pure_iff.mp hruns
        refine ⟨rfl, ⟨_, by simpa using hbefore⟩, _,
          .last htried (Bool.eq_false_of_not_eq_true hclear), ?_⟩
        simp [hnote.calling_eq_nil, hreport.calling_eq_nil]
    · obtain ⟨_, hok, -⟩ := h.of_attemptErase hholds (by simpa using hintime)
      cases hok

/-! ## The erase -/

/-- An erase of the SRAM that does not time out fails only because a design runs afterwards. -/
theorem Runs.of_eraseSram {result : Except Error Unit}
    (hruns : Runs (Device.Sram.erase limit) exchanges result) (hholds : setting.Holds exchanges)
    (hintime : result ≠ .error .timeout) :
    (∃ calls, Follow exchanges calls) ∧
      (result = .ok () ∨ result = .error (.eraseFailed .sram)) := by
  obtain ⟨_, _, _, rfl, hnote, -, hruns, hholds⟩ := (performs_log _ _).rest hruns hholds
  obtain ⟨_, _, _, rfl, hlog, -, hruns, hholds⟩ := (performs_logStatus _).rest hruns hholds
  obtain ⟨_, _, _, -, rfl, hopened, hruns, hholds⟩ :=
    (waits_enableConfig limit).rest hruns hholds hintime
  obtain ⟨_, _, _, rfl, hbegun, -, hruns, hholds⟩ := (performs_send _).rest hruns hholds
  obtain ⟨_, _, _, rfl, hpause, -, hruns, hholds⟩ := (performs_send _).rest hruns hholds
  obtain ⟨_, _, _, -, rfl, hwaited, hruns, hholds⟩ :=
    (waits_awaitStatus _ _ limit).rest hruns hholds hintime
  obtain ⟨_, _, _, rfl, hdone, -, hruns, hholds⟩ := (performs_send _).rest hruns hholds
  obtain ⟨_, _, _, rfl, hpause', -, hruns, hholds⟩ := (performs_send _).rest hruns hholds
  obtain ⟨_, _, _, -, rfl, hclosed, hruns, hholds⟩ :=
    (waits_disableConfig limit).rest hruns hholds hintime
  obtain ⟨_, _, _, rfl, hlog', -, hruns, hholds⟩ := (performs_logStatus _).rest hruns hholds
  obtain ⟨status, _, _, rfl, hread, -, hruns, hholds⟩ := performs_readStatus.rest hruns hholds
  -- All calls up to the last look are known. Whether a design runs then decides the ending.
  have hbefore := hnote.append (hlog.append (hopened.append (hbegun.append (hpause.append
    (hwaited.append (hdone.append (hpause'.append (hclosed.append (hlog'.append hread)))))))))
  split at hruns
  · obtain ⟨_, _, _, rfl, hfail, -, hruns, -⟩ := (performs_log _ _).rest hruns hholds
    obtain ⟨rfl, rfl⟩ := runs_throw_iff.mp hruns
    exact ⟨⟨_, by simpa using hbefore.append hfail⟩, .inr rfl⟩
  · obtain ⟨hlast, _, hok⟩ := performs_log _ _ hruns hholds
    exact ⟨⟨_, by simpa using hbefore.append hlast⟩, .inl hok⟩

/-- The attempts and the look that decides, if they do not time out. -/
theorem Runs.of_emptyFlash {result : Except Error Unit}
    (hruns : Runs (emptyFlash profile limit) exchanges result)
    (hholds : setting.Holds exchanges) (hintime : result ≠ .error .timeout) :
    ∃ attempts last final, calling exchanges = attempts.flatMap (·.1) ++ last ∧
      Attempts setting.filter profile 100 attempts ∧ Look last final ∧
      result = if final.has .doneFinal then .error (.eraseFailed .flash) else .ok () := by
  obtain ⟨_, note, _, rfl, hnote, -, hruns, hholds⟩ := (performs_log _ _).rest hruns hholds
  have htried : ∀ {exchanges : List (Exchange Request Request.Answer)} {result : Except Error Unit},
      Runs (reporting .eraseFlash Device.EmbeddedFlash.eraseAttempts
        (Device.EmbeddedFlash.tryErase profile limit Device.EmbeddedFlash.eraseAttempts 0))
        exchanges result → setting.Holds exchanges → result ≠ .error .timeout →
      result = .ok () ∧ (∃ calls, Follow exchanges calls) ∧
        ∃ attempts, Attempts setting.filter profile 100 attempts ∧
          calling exchanges = attempts.flatMap (·.1) := by
    intro exchanges result hruns hholds hintime
    obtain ⟨start, middle, finish, rfl, hstart, hfinish, hbody⟩ := hruns.of_reporting
    have hstart := follow_of_silent hstart
    have hfinish := follow_of_silent hfinish
    obtain ⟨hok, ⟨calls, hfollow⟩, attempts, hattempts, hcalling⟩ :=
      hbody.of_tryErase (hholds.of_append.1.of_append.2 hstart.keeps) hintime
    refine ⟨hok, ⟨_, (hstart.append hfollow).append hfinish⟩, attempts, hattempts, ?_⟩
    simp [hcalling, hstart.calling_eq_nil, hfinish.calling_eq_nil]
  rcases runs_bind_iff.mp hruns with ⟨⟨⟩, tried, _, rfl, htry, hruns⟩ | ⟨error, rfl, htry⟩
  · obtain ⟨hbefore, hholds⟩ := hholds.of_append
    obtain ⟨-, ⟨calls, hfollow⟩, attempts, hattempts, hcalling⟩ := htried htry hbefore (by simp)
    obtain ⟨final, last, _, rfl, -, hlook, hruns, hholds⟩ :=
      performs_readStatus.rest hruns (hholds hfollow.keeps)
    have hlast := hlook.of_readStatus
    -- What is left to do is to report the outcome.
    have hend : ∀ {ending : List (Exchange Request Request.Answer)}, Follow ending [] →
        calling (note ++ (tried ++ (last ++ ending))) = attempts.flatMap (·.1) ++ last := by
      intro ending hending
      simp [hnote.calling_eq_nil, hcalling, hlast.calling_eq, hending.calling_eq_nil]
    cases hdone : final.has .doneFinal with
    | true =>
      rw [hdone] at hruns
      obtain ⟨_, fail, _, rfl, hfail, -, hruns, -⟩ := (performs_log _ _).rest hruns hholds
      rcases runs_bind_iff.mp hruns with ⟨_, _, _, -, hthrow, -⟩ | ⟨_, rfl, hthrow⟩
      · cases (runs_throw_iff.mp hthrow).2
      · obtain ⟨rfl, hsame⟩ := runs_throw_iff.mp hthrow
        rw [List.append_nil]
        exact ⟨attempts, last, final, hend hfail, hattempts, hlast, by simpa [hdone] using hsame⟩
    | false =>
      rw [hdone] at hruns
      obtain ⟨hending, ⟨⟩, hok⟩ := performs_log _ _ hruns hholds
      exact ⟨attempts, last, final, hend hending, hattempts, hlast, by simpa [hdone] using hok⟩
  · obtain ⟨hok, -⟩ := htried htry hholds (by simpa using hintime)
    cases hok

/-- Over a cable that works, an erase of the embedded flash that does not time out looks at the
status first. If a design is running, the SRAM is erased, and a failure of that is the end. Then
attempts are made, at least one and at most a hundred, each of them as long as the one before has
left a design running. One more look at the status decides how the erase ends. -/
theorem run_eraseFlash {σ : Type} (cable : Cable σ) (filter : LogFilter) (profile : Profile)
    (limit : Nat) (device : σ) :
    let outcome := run cable filter (Device.EmbeddedFlash.erase profile limit) device
    (∀ exchange ∈ outcome.exchanges, Exchange.failure? exchange = none) →
    outcome.result ≠ .error .timeout →
    ∃ first status erasing emptied rest,
      calling outcome.exchanges = first ++ calling erasing ++ rest ∧
      Look first status ∧
      (if status.has .gowinValid then Runs (Device.Sram.erase limit) erasing emptied
        else erasing = [] ∧ emptied = .ok ()) ∧
      ((emptied = .error (.eraseFailed .sram) ∧ rest = [] ∧ outcome.result = emptied) ∨
        (emptied = .ok () ∧ ∃ attempts last final, rest = attempts.flatMap (·.1) ++ last ∧
          Attempts filter profile 100 attempts ∧ Look last final ∧
          outcome.result =
            if final.has .doneFinal then .error (.eraseFailed .flash) else .ok ())) := by
  intro outcome hworks hintime
  obtain ⟨hruns, hgives⟩ := runs_gives_run cable filter (Device.EmbeddedFlash.erase profile limit)
    device
  have hholds := Setting.holds_of_gives hgives hworks
  change Runs _ outcome.exchanges outcome.result at hruns
  rw [eraseFlash_eq] at hruns
  -- From here on only the run matters, and not the cable that has led to it.
  generalize outcome.exchanges = exchanges at hruns hholds ⊢
  generalize outcome.result = result at hruns hintime ⊢
  obtain ⟨status, first, later, rfl, -, hlook, hruns, hholds⟩ :=
    performs_readStatus.rest hruns hholds
  have hfirst := hlook.of_readStatus
  cases hvalid : status.has .gowinValid with
  | true =>
    rw [hvalid] at hruns
    -- With every call answered and no time-out, the erase of the SRAM has one way left to fail.
    rcases runs_bind_iff.mp hruns with ⟨⟨⟩, erasing, _, rfl, herase, hruns⟩ | ⟨error, rfl, herase⟩
    · obtain ⟨hbefore, hholds⟩ := hholds.of_append
      obtain ⟨⟨calls, hfollow⟩, -⟩ := herase.of_eraseSram hbefore (by simp)
      obtain ⟨attempts, last, final, hcalling, hattempts⟩ :=
        hruns.of_emptyFlash (hholds hfollow.keeps) hintime
      refine ⟨first, status, erasing, .ok (), _, ?_, hfirst, ?_,
        .inr ⟨rfl, attempts, last, final, rfl, hattempts⟩⟩
      · simp [hfirst.calling_eq, hcalling]
      · simpa [hvalid] using herase
    · obtain ⟨-, hok | hfailed⟩ := herase.of_eraseSram hholds (by simpa using hintime)
      · cases hok
      · refine ⟨first, status, later, .error error, [], ?_, hfirst, ?_,
          .inl ⟨hfailed, rfl, by simp⟩⟩
        · simp [hfirst.calling_eq]
        · simpa [hvalid] using herase
  | false =>
    rw [hvalid] at hruns
    obtain ⟨attempts, last, final, hcalling, hattempts⟩ := hruns.of_emptyFlash hholds hintime
    refine ⟨first, status, [], .ok (), _, ?_, hfirst, by simp [hvalid],
      .inr ⟨rfl, attempts, last, final, rfl, hattempts⟩⟩
    simp [hfirst.calling_eq, hcalling]

/-- On a device that runs a design and ignores the first attempt, the erase of the SRAM is followed
by attempts, and the last look shows that no design runs any more. -/
theorem run_eraseFlash_ignored_once :
    let sim := (Simulator.powerUp { idcode := 0x0100381B, stubbornErases := 1 }).preload 0
      Device.EmbeddedFlash.autobootSignature
    let outcome := run Simulator.cable none (Device.EmbeddedFlash.erase sim.profile 100) sim
    (∀ exchange ∈ outcome.exchanges, Exchange.failure? exchange = none) ∧
      outcome.result ≠ .error .timeout ∧
      ∃ first status erasing attempts last final,
        calling outcome.exchanges =
          first ++ calling erasing ++ (attempts.flatMap (·.1) ++ last) ∧
        Attempts none sim.profile 100 attempts ∧ Look first status ∧ Look last final ∧
        final.has .doneFinal = false := by
  intro sim outcome
  have hworks : ∀ exchange ∈ outcome.exchanges, Exchange.failure? exchange = none :=
    Simulator.works_run none (Device.EmbeddedFlash.erase sim.profile 100) sim
  have hok : outcome.result = .ok () := by decide +kernel
  have hintime : outcome.result ≠ .error .timeout := by rw [hok]; simp
  obtain ⟨first, status, erasing, emptied, rest, hcalling, hfirst, -, hend⟩ :=
    run_eraseFlash Simulator.cable none sim.profile 100 sim hworks hintime
  rcases hend with ⟨hfailed, -, hsame⟩ | ⟨-, attempts, last, final, rfl, hattempts, hlast, hfinal⟩
  · cases hok.symm.trans (hsame.trans hfailed)
  · refine ⟨hworks, hintime, first, status, erasing, attempts, last, final, hcalling, hattempts,
      hfirst, hlast, ?_⟩
    by_contra hset
    rw [if_pos (by simpa using hset)] at hfinal
    cases hok.symm.trans hfinal

end FpgaProgrammer.Host
