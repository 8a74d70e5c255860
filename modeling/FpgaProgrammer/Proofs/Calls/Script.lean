import FpgaProgrammer.Proofs.Failures.FailStop
import FpgaProgrammer.Proofs.Instructions.Order

/-!
# Programs with a script

Over a cable that works, much of what the host does is a fixed sequence of calls: its script.

* `Host.callsOf` — the calls of the cable among the exchanges of a run. `Cable.after` is where calls
  bring the far end, and those of a run bring it where the run leaves it (`Host.replay_eq_after`).
* `Setting.Holds` — the cable works during a run, the log records what a filter says, and the clock
  has the frequency that is known, if one is, until it is set.
* `Host.Performs` — in a setting, every run of a program makes exactly the calls of its script, and
  succeeds. `Host.Makes` leaves open how the run ends, and `Host.Waits` allows for a wait at the
  end, which looks at the status some number of times and may time out.

Scripts are put together as programs are: `Performs.bind`, `Performs.finally` for a last part that
may fail, and `Performs.rest` and `Waits.rest` to go on with what follows.
-/

namespace FpgaProgrammer

/-- The call of the cable that a request is, if it is one. -/
def Request.call? : Request → Option CableCall
  | .cable call => some call
  | _ => none

/-- The request sets the clock frequency. -/
def Request.setsClock : Request → Bool
  | .cable (.setClockFrequency _) => true
  | _ => false

/-! ## Settings -/

/-- What is known of the surroundings of a run, apart from a cable that works. -/
structure Setting where
  /-- What the log records. -/
  filter : LogFilter
  /-- The clock frequency at first, if it is known. -/
  frequency? : Option UInt32 := none

namespace Setting

/-- The answer is one that may come in this setting. -/
def Admits (setting : Setting) : Exchange Request Request.Answer → Prop
  | ⟨.cable .clockFrequency, hertz⟩ => ∀ frequency ∈ setting.frequency?, hertz = frequency
  | ⟨.cable call, reply⟩ => call.failure? reply = none
  | ⟨.records level, recorded⟩ => recorded = setting.filter.records level
  | _ => True

/-- The answers are such as may come in this setting, as long as nobody sets the clock. -/
def Holds (setting : Setting) : (exchanges : List (Exchange Request Request.Answer)) → Prop
  | [] => True
  | exchange :: exchanges =>
    setting.Admits exchange ∧ (exchange.1.setsClock = false → Holds setting exchanges)

variable {setting : Setting} {first second : List (Exchange Request Request.Answer)}

/-- What holds of exchanges holds of those in front, and of what follows unless they set the
clock. -/
theorem Holds.of_append (h : setting.Holds (first ++ second)) :
    setting.Holds first ∧
      ((∀ exchange ∈ first, exchange.1.setsClock = false) → setting.Holds second) := by
  induction first with
  | nil => exact ⟨trivial, fun _ => h⟩
  | cons exchange first ih =>
    obtain ⟨hadmits, hrest⟩ := h
    refine ⟨⟨hadmits, fun hkeeps => (ih (hrest hkeeps)).1⟩, fun hkeeps => ?_⟩
    obtain ⟨hexchange, hfirst⟩ := List.forall_mem_cons.mp hkeeps
    exact (ih (hrest hexchange)).2 hfirst

/-- The answers of a cable and a log, as long as the cable does not fail. -/
theorem holds_of_gives {σ : Type} {cable : Cable σ} {filter : LogFilter} {device : σ}
    {exchanges : List (Exchange Request Request.Answer)}
    (hgives : (Host.surroundings cable filter).Gives device exchanges)
    (hworks : ∀ exchange ∈ exchanges, Exchange.failure? exchange = none) :
    Setting.Holds { filter } exchanges := by
  induction exchanges generalizing device with
  | nil => trivial
  | cons exchange exchanges ih =>
    obtain ⟨request, answer⟩ := exchange
    obtain ⟨hanswer, hrest⟩ := hgives
    obtain ⟨hfirst, hworks⟩ := List.forall_mem_cons.mp hworks
    refine ⟨?_, fun _ => ih hrest hworks⟩
    cases request with
    | cable call =>
      cases call with
      | clockFrequency => simp [Admits]
      | _ => exact hfirst
    | records level => exact hanswer.symm
    | _ => trivial

end Setting

/-! ## The far end -/

/-- The far end of the cable after some calls. -/
def Cable.after {σ : Type} (cable : Cable σ) (device : σ) (calls : List CableCall) : σ :=
  calls.foldl (fun device call => (cable call device).2) device

/-- A sequence of calls leads on from where its first part has led. -/
@[simp]
theorem Cable.after_append {σ : Type} (cable : Cable σ) (device : σ)
    (first second : List CableCall) :
    cable.after device (first ++ second) = cable.after (cable.after device first) second :=
  List.foldl_append

namespace Host

variable {α β : Type} {setting : Setting} {exchanges : List (Exchange Request Request.Answer)}
  {calls first second : List CableCall}

/-! ## Scripts -/

/-- The calls of the cable among the exchanges. -/
def callsOf (exchanges : List (Exchange Request Request.Answer)) : List CableCall :=
  exchanges.filterMap (·.1.call?)

@[simp]
theorem callsOf_nil : callsOf [] = [] :=
  rfl

@[simp]
theorem callsOf_append (first second : List (Exchange Request Request.Answer)) :
    callsOf (first ++ second) = callsOf first ++ callsOf second :=
  List.filterMap_append

/-- What is sent in the calls of a run is allowed to its program. -/
theorem Sends.mem_of_call {allowed : List Instruction} {program : Host α}
    {result : Except Error α} {call : CableCall} {instruction : Instruction}
    (h : Sends allowed program) (hruns : Runs program exchanges result)
    (hcall : call ∈ callsOf exchanges)
    (hsent : (Request.cable call).instruction? = some instruction) : instruction ∈ allowed := by
  obtain ⟨⟨request, answer⟩, hmem, hrequest⟩ := List.mem_filterMap.mp hcall
  cases request with
  | cable given =>
    obtain rfl := Option.some_inj.mp hrequest
    exact h hruns _ hmem instruction hsent
  | _ => cases hrequest

/-- The exchanges follow a script: they make exactly these calls, and do not set the clock. -/
structure Follow (exchanges : List (Exchange Request Request.Answer)) (calls : List CableCall) :
    Prop where
  /-- The calls that are made. -/
  calls_eq : callsOf exchanges = calls
  /-- The clock is left alone. -/
  keeps : ∀ exchange ∈ exchanges, exchange.1.setsClock = false

theorem follow_nil : Follow [] [] :=
  ⟨rfl, fun _ hmem => absurd hmem List.not_mem_nil⟩

/-- Exchanges that follow one script after the other follow both in sequence. -/
theorem Follow.append {before after : List (Exchange Request Request.Answer)}
    (h : Follow before first) (h' : Follow after second) :
    Follow (before ++ after) (first ++ second) := by
  refine ⟨?_, List.forall_mem_append.mpr ⟨h.keeps, h'.keeps⟩⟩
  rw [callsOf_append, h.calls_eq, h'.calls_eq]

/-- Where the cable is not called, no script is followed. -/
theorem follow_of_silent (h : ∀ exchange ∈ exchanges, exchange.1.isCall = false) :
    Follow exchanges [] := by
  have hsilent : ∀ {request : Request}, request.isCall = false →
      request.call? = none ∧ request.setsClock = false := by
    intro request hrequest
    cases request with
    | cable call => cases hrequest
    | _ => exact ⟨rfl, rfl⟩
  refine ⟨?_, fun exchange hmem => (hsilent (h exchange hmem)).2⟩
  apply List.filterMap_eq_nil_iff.mpr
  exact fun exchange hmem => (hsilent (h exchange hmem)).1

/-- The far end of the cable is where the calls among the exchanges have brought it. -/
theorem replay_eq_after {σ : Type} {cable : Cable σ} {filter : LogFilter} (device : σ)
    (exchanges : List (Exchange Request Request.Answer)) :
    (surroundings cable filter).replay device exchanges =
      cable.after device (callsOf exchanges) := by
  induction exchanges generalizing device with
  | nil => rfl
  | cons exchange exchanges ih =>
    obtain ⟨request, answer⟩ := exchange
    cases request with
    | cable call => exact ih (cable call device).2
    | _ => exact ih device

/-- Nothing happens at the far end of the cable while the cable is not called. -/
theorem replay_of_silent {σ : Type} {cable : Cable σ} {filter : LogFilter} {device : σ}
    (h : ∀ exchange ∈ exchanges, exchange.1.isCall = false) :
    (surroundings cable filter).replay device exchanges = device := by
  rw [replay_eq_after, (follow_of_silent h).calls_eq]
  rfl

/-- In this setting, every run of the program follows the script. -/
def Makes (setting : Setting) (program : Host α) (calls : List CableCall) : Prop :=
  ∀ ⦃exchanges result⦄, Runs program exchanges result → setting.Holds exchanges →
    Follow exchanges calls

/-- In this setting, every run of the program follows the script, and succeeds. -/
def Performs (setting : Setting) (program : Host α) (calls : List CableCall) : Prop :=
  ∀ ⦃exchanges result⦄, Runs program exchanges result → setting.Holds exchanges →
    Follow exchanges calls ∧ ∃ value, result = .ok value

/-- A program that succeeds along its script follows it in particular. -/
theorem Performs.makes {program : Host α} (h : Performs setting program calls) :
    Makes setting program calls :=
  fun _ _ hruns hholds => (h hruns hholds).1

/-- A sequence goes on after the script of its first part. -/
theorem Performs.rest {program : Host α} {next : α → Host β} {result : Except Error β}
    (h : Performs setting program calls) (hruns : Runs (program >>= next) exchanges result)
    (hholds : setting.Holds exchanges) :
    ∃ value before after, exchanges = before ++ after ∧ Follow before calls ∧
      Runs program before (.ok value) ∧ Runs (next value) after result ∧ setting.Holds after := by
  rcases runs_bind_iff.mp hruns with
    ⟨value, before, after, rfl, hfirst, hsecond⟩ | ⟨error, -, hfirst⟩
  · obtain ⟨hbefore, hafter⟩ := hholds.of_append
    have hfollow := (h hfirst hbefore).1
    -- The script leaves the clock alone, so that the setting holds of what follows as well.
    exact ⟨value, before, after, rfl, hfollow, hfirst, hsecond, hafter hfollow.keeps⟩
  · obtain ⟨-, value, hok⟩ := h hfirst hholds
    cases hok

/-- The script of a sequence is the one of its parts. -/
theorem Performs.bind {program : Host α} {next : α → Host β} (h : Performs setting program first)
    (hnext : ∀ value, Performs setting (next value) second) :
    Performs setting (program >>= next) (first ++ second) := by
  intro exchanges result hruns hholds
  obtain ⟨value, before, after, rfl, hbefore, -, hrest, hholds⟩ := h.rest hruns hholds
  obtain ⟨hafter, hok⟩ := hnext value hrest hholds
  exact ⟨hbefore.append hafter, hok⟩

/-- The last part of a sequence may fail. -/
theorem Performs.finally {program : Host α} {next : α → Host β} (h : Performs setting program first)
    (hnext : ∀ value, Makes setting (next value) second) :
    Makes setting (program >>= next) (first ++ second) := by
  intro exchanges result hruns hholds
  obtain ⟨value, before, after, rfl, hbefore, -, hrest, hholds⟩ := h.rest hruns hholds
  exact hbefore.append (hnext value hrest hholds)

theorem performs_pure (value : α) : Performs setting (pure value) [] := by
  intro exchanges result hruns hholds
  obtain ⟨rfl, rfl⟩ := runs_pure_iff.mp hruns
  exact ⟨follow_nil, value, rfl⟩

theorem makes_throw (error : Error) : Makes setting (throw error : Host α) [] := by
  intro exchanges result hruns hholds
  obtain ⟨rfl, -⟩ := runs_throw_iff.mp hruns
  exact follow_nil

/-! ## Calls -/

/-- What does not fail has a value. -/
theorem exists_ok_of_failure? {reply : Except Error α} (h : failure? reply = none) :
    ∃ value, reply = .ok value := by
  cases reply with
  | ok value => exact ⟨value, rfl⟩
  | error error => cases h

/-- A program that is one call of the cable, and ends as the call does. -/
theorem performs_of_runs {program : Host α} {call : CableCall}
    (hkeeps : (Request.cable call).setsClock = false)
    (hruns : ∀ {exchanges result}, Runs program exchanges result →
      ∃ reply, exchanges = [⟨.cable call, reply⟩] ∧
        (setting.Admits ⟨.cable call, reply⟩ → ∃ value, result = .ok value)) :
    Performs setting program [call] := by
  intro exchanges result h hholds
  obtain ⟨reply, rfl, hok⟩ := hruns h
  exact ⟨⟨rfl, by simpa using hkeeps⟩, hok hholds.1⟩

/-- Shifting the instruction register is one call, and succeeds if the call does. -/
theorem performs_shiftIr (data : Bytes) (bits : Nat) :
    Performs setting (shiftIr data bits) [.shiftIr data bits] :=
  performs_of_runs rfl fun h => ⟨_, Dialogue.runs_put_iff.mp h, exists_ok_of_failure?⟩

/-- A scan of the data register is one call; handing on what it captured makes no other. -/
theorem performs_shiftDr (scan : Scan) : Performs setting (shiftDr scan) [.shiftDr scan] := by
  have hcall : Performs setting (ExceptT.mk (call (.shiftDr scan)) : Host Bytes)
      [.shiftDr scan] :=
    performs_of_runs rfl fun h => ⟨_, Dialogue.runs_put_iff.mp h, exists_ok_of_failure?⟩
  exact hcall.bind fun _ => performs_pure _

theorem performs_setState (state : TapState) :
    Performs setting (setState state) [.setState state] :=
  performs_of_runs rfl fun h => ⟨_, Dialogue.runs_put_iff.mp h, exists_ok_of_failure?⟩

theorem performs_toggleClock (cycles : UInt32) :
    Performs setting (toggleClock cycles) [.toggleClock cycles] :=
  performs_of_runs rfl fun h => ⟨_, Dialogue.runs_put_iff.mp h, exists_ok_of_failure?⟩

theorem performs_flush : Performs setting flush [.flush] :=
  performs_of_runs rfl fun h => ⟨_, Dialogue.runs_put_iff.mp h, exists_ok_of_failure?⟩

/-- What cannot fail is asked, and its answer handed on. -/
theorem runs_ask_iff {request : Request} {result : Except Error request.Answer} :
    Runs (ask request) exchanges result ↔
      ∃ answer, exchanges = [⟨request, answer⟩] ∧ result = .ok answer := by
  constructor
  · intro h
    obtain ⟨_, answer, _, rfl, hput, hdone⟩ := Dialogue.runs_bind_iff.mp h
    obtain rfl := Dialogue.runs_put_iff.mp hput
    obtain ⟨rfl, rfl⟩ := Dialogue.runs_done_iff.mp hdone
    exact ⟨answer, rfl, rfl⟩
  · rintro ⟨answer, rfl, rfl⟩
    exact Dialogue.runs_bind_iff.mpr
      ⟨[⟨request, answer⟩], answer, [], rfl, Dialogue.runs_put_iff.mpr rfl, .done _⟩

/-- A sequence goes on with the answer to what is asked first. -/
theorem Runs.of_ask_bind {request : Request} {next : request.Answer → Host β}
    {result : Except Error β} (h : Runs (ask request >>= next) exchanges result) :
    ∃ answer rest, exchanges = ⟨request, answer⟩ :: rest ∧ Runs (next answer) rest result := by
  rcases runs_bind_iff.mp h with ⟨_, _, rest, rfl, hask, hnext⟩ | ⟨_, -, hask⟩
  · obtain ⟨answer, rfl, hsame⟩ := runs_ask_iff.mp hask
    obtain rfl := Except.ok.inj hsame
    exact ⟨_, rest, rfl, hnext⟩
  · obtain ⟨_, -, hok⟩ := runs_ask_iff.mp hask
    cases hok

theorem performs_sleep (milliseconds : UInt32) :
    Performs setting (sleep milliseconds) [.sleep milliseconds] :=
  performs_of_runs rfl fun h =>
    let ⟨answer, hexchanges, hresult⟩ := runs_ask_iff.mp h
    ⟨answer, hexchanges, fun _ => ⟨answer, hresult⟩⟩

/-- A question that is not put to the cable is no part of the script. -/
theorem performs_ask {request : Request} (h : request.isCall = false) :
    Performs setting (ask request) [] := by
  intro exchanges result hruns hholds
  obtain ⟨answer, rfl, rfl⟩ := runs_ask_iff.mp hruns
  exact ⟨follow_of_silent (by simpa using h), answer, rfl⟩

theorem performs_log (level : LogLevel) (text : String) : Performs setting (log level text) [] :=
  performs_ask rfl

theorem performs_progress (report : Progress) : Performs setting (progress report) [] :=
  performs_ask rfl

/-- A stage that is reported on runs between two reports. The second one says how it ended. -/
theorem Runs.between_reports {body : Host Unit} {stage : Stage} {total : Nat}
    {result : Except Error Unit} (h : Runs (reporting stage total body) exchanges result) :
    ∃ within, exchanges = ⟨.progress (.start stage total), ()⟩ ::
        (within ++ [⟨.progress (.finish result.isOk), ()⟩]) ∧ Runs body within result := by
  obtain ⟨⟨⟩, _, rfl, hrest⟩ := h.of_ask_bind
  rcases runs_bind_iff.mp hrest with
    ⟨⟨⟩, within, finish, rfl, hwithin, hfinish⟩ | ⟨error, rfl, hall⟩
  · obtain ⟨⟨⟩, rfl, rfl⟩ := runs_ask_iff.mp hfinish
    refine ⟨within, rfl, ?_⟩
    rcases runs_tryCatch_iff.mp hwithin with ⟨_, -, hok⟩ | ⟨_, _, _, -, -, hhandle⟩
    · exact hok
    · -- The handler throws again whatever it has caught.
      obtain ⟨_, _, -, hthrow⟩ := hhandle.of_ask_bind
      cases (runs_throw_iff.mp hthrow).2
  · rcases runs_tryCatch_iff.mp hall with ⟨_, hok, -⟩ | ⟨_, within, _, rfl, hwithin, hhandle⟩
    · cases hok
    · obtain ⟨⟨⟩, _, rfl, hthrow⟩ := hhandle.of_ask_bind
      obtain ⟨rfl, hsame⟩ := runs_throw_iff.mp hthrow
      rw [hsame]
      exact ⟨within, rfl, hwithin⟩

/-- What is reported on is done as if it were not, with silence before and after it. -/
theorem Runs.of_reporting {body : Host Unit} {stage : Stage} {total : Nat}
    {result : Except Error Unit} (h : Runs (reporting stage total body) exchanges result) :
    ∃ start middle finish, exchanges = start ++ middle ++ finish ∧
      (∀ exchange ∈ start, exchange.1.isCall = false) ∧
      (∀ exchange ∈ finish, exchange.1.isCall = false) ∧ Runs body middle result := by
  obtain ⟨within, rfl, hwithin⟩ := h.between_reports
  have hsilent : ∀ report : Progress,
      ∀ exchange ∈ [(⟨.progress report, ()⟩ : Exchange Request Request.Answer)],
        exchange.1.isCall = false := by simp [Request.isCall]
  exact ⟨_, within, _, rfl, hsilent _, hsilent _, hwithin⟩

/-- The script of what is reported on. -/
theorem performs_reporting {body : Host Unit} (stage : Stage) (total : Nat)
    (h : Performs setting body calls) : Performs setting (reporting stage total body) calls := by
  intro exchanges result hruns hholds
  obtain ⟨start, middle, finish, rfl, hstart, hfinish, hbody⟩ := hruns.of_reporting
  have hstart := follow_of_silent hstart
  obtain ⟨hmiddle, hok⟩ := h hbody (hholds.of_append.1.of_append.2 hstart.keeps)
  have hfollow := (hstart.append hmiddle).append (follow_of_silent hfinish)
  rw [List.nil_append, List.append_nil] at hfollow
  exact ⟨hfollow, hok⟩

/-! ## Instructions and registers -/

/-- The calls that send an instruction. -/
def sendCalls (instruction : Instruction) : List CableCall :=
  [.shiftIr [instruction.opcode] 8, .toggleClock 5]

/-- The calls of a look at the status. -/
def lookCalls : List CableCall :=
  sendCalls .readStatus ++ [.shiftDr registerScan]

/-- The calls of a look at the status for the log. -/
def logCalls (filter : LogFilter) : List CableCall :=
  if filter.records .debug then lookCalls else []

/-- The calls that wait for so many microseconds. -/
def idleCalls (frequency : UInt32) (microseconds : Nat) : List CableCall :=
  [.clockFrequency, .toggleClock (Device.clocksFor frequency microseconds)]

/-- An instruction is sent in one shift of the instruction register and five clocks. -/
theorem performs_send (instruction : Instruction) :
    Performs setting (Device.send instruction) (sendCalls instruction) :=
  (performs_shiftIr _ _).bind fun _ => performs_toggleClock _

/-- The status is read by sending its instruction and scanning 32 bits. -/
theorem performs_readStatus : Performs setting Device.readStatus lookCalls := by
  have hregister : Performs setting (Device.readRegister Instruction.readStatus.opcode)
      (sendCalls .readStatus ++ ([.shiftDr registerScan] ++ [])) :=
    (performs_send .readStatus).bind fun _ => (performs_shiftDr _).bind fun _ => performs_pure _
  exact hregister.bind fun _ => performs_pure _

/-- The status is only looked at for the log if the filter lets debug lines through. Writing the
flags down makes no call. -/
theorem performs_logStatus (occasion : String) :
    Performs setting (Device.logStatus occasion) (logCalls setting.filter) := by
  have hflags : ∀ flags : List StatusFlag,
      Performs setting (flags.forM fun flag => log .debug ("\t" ++ flag.label)) [] := by
    intro flags
    induction flags with
    | nil => exact performs_pure _
    | cons flag flags ih => exact (performs_log _ _).bind fun _ => ih
  intro exchanges result hruns hholds
  -- The first question decides, and its answer is the one of the filter.
  obtain ⟨recorded, before, after, rfl, hnone, hrecords, hrest, hafter⟩ :=
    (performs_ask rfl : Performs setting (records .debug) []).rest hruns hholds
  obtain ⟨recorded, rfl, hsame⟩ := runs_ask_iff.mp hrecords
  obtain rfl := Except.ok.inj hsame
  have hfilter : recorded = setting.filter.records .debug := hholds.1
  rw [logCalls, ← hfilter]
  cases recorded with
  | false =>
    obtain ⟨hafter, hok⟩ := performs_pure _ hrest hafter
    exact ⟨hnone.append hafter, hok⟩
  | true =>
    have hread : Performs setting Device.readStatus lookCalls := performs_readStatus
    have hlook := hread.bind fun status =>
      (performs_log .debug (occasion ++ ": status " ++ Device.showWord status.bits)).bind fun _ =>
        hflags status.flags
    obtain ⟨hafter, hok⟩ := hlook hrest hafter
    exact ⟨hnone.append hafter, hok⟩

/-- A wait takes the clocks of the frequency that the cable reports. -/
theorem runs_idle {microseconds : Nat} {result : Except Error Unit}
    (hruns : Runs (Device.idle microseconds) exchanges result) (hholds : setting.Holds exchanges) :
    ∃ hertz, (∀ frequency ∈ setting.frequency?, hertz = frequency) ∧
      Follow exchanges (idleCalls hertz microseconds) ∧ result = .ok () := by
  have hclock : Performs setting clockFrequency [.clockFrequency] :=
    performs_of_runs rfl fun h =>
      let ⟨answer, hexchanges, hresult⟩ := runs_ask_iff.mp h
      ⟨answer, hexchanges, fun _ => ⟨answer, hresult⟩⟩
  -- What the cable answers is what the clocks are counted with.
  obtain ⟨hertz, before, after, rfl, hbefore, hasked, hrest, hafter⟩ := hclock.rest hruns hholds
  obtain ⟨hertz, rfl, hsame⟩ := runs_ask_iff.mp hasked
  obtain rfl := Except.ok.inj hsame
  obtain ⟨htoggled, ⟨⟩, hok⟩ := performs_toggleClock _ hrest hafter
  exact ⟨hertz, hholds.1, hbefore.append htoggled, hok⟩

/-- A sequence goes on after a wait, whatever the frequency is. -/
theorem Runs.rest_of_idle {microseconds : Nat} {next : Unit → Host β} {result : Except Error β}
    (hruns : Runs (Device.idle microseconds >>= next) exchanges result)
    (hholds : setting.Holds exchanges) :
    ∃ hertz before after, exchanges = before ++ after ∧
      Follow before (idleCalls hertz microseconds) ∧ Runs (next ()) after result ∧
      setting.Holds after := by
  rcases runs_bind_iff.mp hruns with ⟨⟨⟩, before, after, rfl, hidle, hrest⟩ | ⟨_, -, hidle⟩
  · obtain ⟨hbefore, hafter⟩ := hholds.of_append
    obtain ⟨hertz, -, hfollow, -⟩ := runs_idle hidle hbefore
    exact ⟨hertz, before, after, rfl, hfollow, hrest, hafter hfollow.keeps⟩
  · obtain ⟨_, -, -, hok⟩ := runs_idle hidle hholds
    cases hok

/-- A wait takes the clocks of the frequency that is known. -/
theorem performs_idle {frequency : UInt32} (hfrequency : setting.frequency? = some frequency)
    (microseconds : Nat) :
    Performs setting (Device.idle microseconds) (idleCalls frequency microseconds) := by
  intro exchanges result hruns hholds
  obtain ⟨hertz, hknown, hfollow, hok⟩ := runs_idle hruns hholds
  obtain rfl := hknown frequency hfrequency
  exact ⟨hfollow, (), hok⟩

/-! ## Waits for a status -/

/-- The calls of so many looks at the status. -/
def looksCalls (looks : Nat) : List CableCall :=
  (List.replicate looks lookCalls).flatten

/-- One look more than so many is one look before them. -/
theorem looksCalls_succ (looks : Nat) : looksCalls (looks + 1) = lookCalls ++ looksCalls looks := by
  simp [looksCalls, List.replicate_succ]

/-- In this setting, every run of the program follows the script and then looks at the status at
least once, unless it times out. -/
def Waits (setting : Setting) (program : Host Unit) (calls : List CableCall) : Prop :=
  ∀ ⦃exchanges result⦄, Runs program exchanges result → setting.Holds exchanges →
    result = .error .timeout ∨
      (result = .ok () ∧ ∃ looks, 0 < looks ∧ Follow exchanges (calls ++ looksCalls looks))

/-- A sequence that does not time out goes on after a wait. -/
theorem Waits.rest {program : Host Unit} {next : Unit → Host β} {result : Except Error β}
    (h : Waits setting program calls) (hruns : Runs (program >>= next) exchanges result)
    (hholds : setting.Holds exchanges) (hintime : result ≠ .error .timeout) :
    ∃ looks before after, 0 < looks ∧ exchanges = before ++ after ∧
      Follow before (calls ++ looksCalls looks) ∧ Runs (next ()) after result ∧
      setting.Holds after := by
  rcases runs_bind_iff.mp hruns with
    ⟨⟨⟩, before, after, rfl, hfirst, hsecond⟩ | ⟨error, rfl, hfirst⟩
  · obtain ⟨hbefore, hafter⟩ := hholds.of_append
    rcases h hfirst hbefore with htimeout | ⟨-, looks, hlooks, hfollow⟩
    · cases htimeout
    · exact ⟨looks, before, after, hlooks, rfl, hfollow, hsecond, hafter hfollow.keeps⟩
  · rcases h hfirst hholds with htimeout | ⟨hok, -⟩
    · cases htimeout
      exact absurd rfl hintime
    · cases hok

/-- A wait may follow a script. -/
theorem Performs.waits {program : Host α} {next : α → Host Unit}
    (h : Performs setting program first) (hnext : ∀ value, Waits setting (next value) second) :
    Waits setting (program >>= next) (first ++ second) := by
  intro exchanges result hruns hholds
  obtain ⟨value, before, after, rfl, hbefore, -, hrest, hholds⟩ := h.rest hruns hholds
  refine (hnext value hrest hholds).imp_right fun ⟨hok, looks, hlooks, hfollow⟩ =>
    ⟨hok, looks, hlooks, ?_⟩
  rw [List.append_assoc]
  exact hbefore.append hfollow

/-- Waiting for a status starts with no call other than its looks. -/
theorem waits_awaitStatus (mask expected : Status) (limit : Nat) :
    Waits setting (Device.awaitStatus mask expected limit) [] := by
  intro exchanges result hruns hholds
  -- On the looks that are allowed: each is the last one, or it is followed by a wait.
  induction limit generalizing exchanges result with
  | zero =>
    obtain ⟨_, _, _, rfl, -, -, hthrow, -⟩ := (performs_log _ _).rest hruns hholds
    exact .inl (runs_throw_iff.mp hthrow).2
  | succ limit ih =>
    obtain ⟨status, look, _, rfl, hlook, -, hruns, hholds⟩ := performs_readStatus.rest hruns hholds
    obtain ⟨_, note, _, rfl, hnote, -, hruns, hholds⟩ := (performs_log _ _).rest hruns hholds
    split at hruns
    · obtain ⟨rfl, rfl⟩ := runs_pure_iff.mp hruns
      refine .inr ⟨rfl, 1, Nat.one_pos, ?_⟩
      simpa [looksCalls] using hlook.append (hnote.append follow_nil)
    · refine (ih hruns hholds).imp_right fun ⟨hok, looks, _, hfollow⟩ =>
        ⟨hok, looks + 1, looks.succ_pos, ?_⟩
      simpa [looksCalls, List.replicate_succ] using hlook.append (hnote.append hfollow)

/-- Opening the gate sends its instruction, and then waits for the gate to be reported as open. -/
theorem waits_enableConfig (limit : Nat) :
    Waits setting (Device.enableConfig limit) (sendCalls .configEnable) := by
  have h : Waits setting (Device.enableConfig limit) (sendCalls .configEnable ++ []) :=
    (performs_send .configEnable).waits fun _ => waits_awaitStatus _ _ limit
  rwa [List.append_nil] at h

/-- Closing the gate sends its instruction and one without effect, and then waits for the gate to be
reported as closed. -/
theorem waits_disableConfig (limit : Nat) :
    Waits setting (Device.disableConfig limit)
      (sendCalls .configDisable ++ sendCalls .noop) := by
  have h : Waits setting (Device.disableConfig limit)
      (sendCalls .configDisable ++ (sendCalls .noop ++ [])) :=
    (performs_send .configDisable).waits fun _ =>
      (performs_send .noop).waits fun _ => waits_awaitStatus _ _ limit
  rwa [List.append_nil] at h

end Host

end FpgaProgrammer
