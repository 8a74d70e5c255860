import FpgaProgrammer.Proofs.Host.Runs

/-!
# Programs that stop at the first failure of the cable

A program is fail-stop (`Host.FailStop`) if over every cable the first call that fails is the last
one that is made, and the program ends with exactly that failure. Up to there it has done what it
does over any other cable that gives the same answers.

* `StopsWith ending exchanges`: a failure among the exchanges is what they end with, and the cable
  is not called after it.
* `Host.Stops program`: so it is in every run of the program, whoever answers. The rules follow the
  programs: `Stops.bind`, and `Stops.rethrow` for a handler that only reports a failure and throws
  it again.
* `Host.failStop_of_stops`: such a program is fail-stop.
* `Cable.failingOnce`: a cable that fails at one call.
-/

namespace FpgaProgrammer

/-! ## Failures of the cable -/

/-- The error that something ended with, if it failed. -/
def failure? {α : Type} : Except Error α → Option Error
  | .ok _ => none
  | .error error => some error

/-- The error that a reply of the cable is, if it is one. -/
def CableCall.failure? : (call : CableCall) → call.Reply → Option Error
  | .shiftIr _ _, reply => FpgaProgrammer.failure? (reply : Except Error Unit)
  | .shiftDr _, reply => FpgaProgrammer.failure? (reply : Except Error Bytes)
  | .setState _, reply => FpgaProgrammer.failure? (reply : Except Error Unit)
  | .toggleClock _, reply => FpgaProgrammer.failure? (reply : Except Error Unit)
  | .flush, reply => FpgaProgrammer.failure? (reply : Except Error Unit)
  | .setClockFrequency _, reply => FpgaProgrammer.failure? (reply : Except Error UInt32)
  | .readIdcode, reply => FpgaProgrammer.failure? (reply : Except Error UInt32)
  | .clockFrequency, _ => none
  | .sleep _, _ => none

/-- The error that the cable failed with in an exchange, if it failed. -/
def Exchange.failure? : Exchange Request Request.Answer → Option Error
  | ⟨.cable call, reply⟩ => call.failure? reply
  | _ => none

/-- The request is a call of the cable. -/
def Request.isCall : Request → Bool
  | .cable _ => true
  | _ => false

/-- Only the cable fails. -/
theorem Exchange.failure?_of_not_isCall {exchange : Exchange Request Request.Answer}
    (h : exchange.1.isCall = false) : Exchange.failure? exchange = none := by
  obtain ⟨question, answer⟩ := exchange
  cases question with
  | cable call => cases h
  | _ => rfl

/-! ## Exchanges that end with a failure -/

/-- A failure among the exchanges is what they end with, and the cable is not called after it. -/
def StopsWith (ending : Option Error) : (exchanges : List (Exchange Request Request.Answer)) → Prop
  | [] => True
  | exchange :: exchanges =>
    (∀ error, Exchange.failure? exchange = some error →
      ending = some error ∧ ∀ later ∈ exchanges, later.1.isCall = false) ∧
    StopsWith ending exchanges

section Exchanges

variable {ending ending' : Option Error}
  {exchanges first second : List (Exchange Request Request.Answer)}

/-- Where the cable is not called, nothing fails. -/
theorem stopsWith_of_silent (h : ∀ exchange ∈ exchanges, exchange.1.isCall = false) :
    StopsWith ending exchanges := by
  induction exchanges with
  | nil => trivial
  | cons exchange exchanges ih =>
    refine ⟨fun error hfailed => ?_, ih fun later hmem => h later (List.mem_cons_of_mem _ hmem)⟩
    rw [Exchange.failure?_of_not_isCall (h exchange List.mem_cons_self)] at hfailed
    cases hfailed

/-- Exchanges go on after others that end without a failure, or they are silent and end with the
same one. -/
theorem StopsWith.append (h : StopsWith ending first) (h' : StopsWith ending' second)
    (hgo : ending = none ∨
      (ending' = ending ∧ ∀ exchange ∈ second, exchange.1.isCall = false)) :
    StopsWith ending' (first ++ second) := by
  -- On the exchanges before: one of them that fails is followed by silence in both parts.
  induction first with
  | nil => exact h'
  | cons exchange first ih =>
    obtain ⟨hfailure, hrest⟩ := h
    refine ⟨fun error hfailed => ?_, ih hrest⟩
    obtain ⟨hending, hlater⟩ := hfailure error hfailed
    rcases hgo with hnone | ⟨hsame, hsilent⟩
    · cases hnone.symm.trans hending
    · refine ⟨hsame.trans hending, fun later hmem => ?_⟩
      rcases List.mem_append.mp hmem with hmem | hmem
      · exact hlater later hmem
      · exact hsilent later hmem

/-- After a failure there is no further call, and the failure is what the exchanges end with. -/
theorem StopsWith.of_split {past later : List (Exchange Request Request.Answer)}
    {exchange : Exchange Request Request.Answer} {error : Error}
    (h : StopsWith ending (past ++ exchange :: later))
    (hfailed : Exchange.failure? exchange = some error) :
    ending = some error ∧ ∀ next ∈ later, next.1.isCall = false := by
  induction past with
  | nil => exact h.1 error hfailed
  | cons earlier past ih => exact ih h.2

end Exchanges

/-! ## Dialogues -/

namespace HostDialogue

variable {α β : Type}

/-- Whoever answers: the dialogue ends with the first failure of the cable, and does not call it
again. `ending` is the failure that a value stands for. -/
def Stops (ending : α → Option Error) (d : HostDialogue α) : Prop :=
  ∀ ⦃exchanges value⦄, Dialogue.Runs d exchanges value → StopsWith (ending value) exchanges

/-- Whoever answers: the dialogue ends with the error, and does not call the cable. -/
def GivesUp (ending : α → Option Error) (error : Error) (d : HostDialogue α) : Prop :=
  ∀ ⦃exchanges value⦄, Dialogue.Runs d exchanges value →
    ending value = some error ∧ ∀ exchange ∈ exchanges, exchange.1.isCall = false

variable {ending : α → Option Error} {ending' : β → Option Error}

theorem stops_pure (value : α) : Stops ending (pure value) := by
  intro exchanges result hruns
  obtain ⟨rfl, -⟩ := Dialogue.runs_done_iff.mp hruns
  trivial

/-- A value that stands for the error ends a dialogue with it at once. -/
theorem givesUp_pure {value : α} {error : Error} (h : ending value = some error) :
    GivesUp ending error (pure value) := by
  intro exchanges result hruns
  obtain ⟨rfl, rfl⟩ := Dialogue.runs_done_iff.mp hruns
  exact ⟨h, fun _ hmem => absurd hmem List.not_mem_nil⟩

/-- A dialogue goes on after a first part that did not fail, and gives up after one that did. -/
theorem Stops.bind {d : HostDialogue α} {f : α → HostDialogue β}
    (h : Stops ending d)
    (hgo : ∀ value, ending value = none → Stops ending' (f value))
    (hstop : ∀ value error, ending value = some error → GivesUp ending' error (f value)) :
    Stops ending' (d >>= f) := by
  intro exchanges result hruns
  obtain ⟨first, middle, second, rfl, hfirst, hsecond⟩ := Dialogue.runs_bind_iff.mp hruns
  cases hending : ending middle with
  | none => exact (h hfirst).append (hgo middle hending hsecond) (.inl hending)
  | some error =>
    obtain ⟨hsame, hsilent⟩ := hstop middle error hending hsecond
    exact (h hfirst).append (stopsWith_of_silent hsilent)
      (.inr ⟨hsame.trans hending.symm, hsilent⟩)

/-- What a value is turned into fails where the value did. -/
theorem Stops.map {d : HostDialogue α} {f : α → β} (h : Stops ending d)
    (hsame : ∀ value, ending' (f value) = ending value) : Stops ending' (f <$> d) := by
  rw [← bind_pure_comp]
  exact h.bind (fun _ _ => stops_pure _) fun value error hfailed =>
    givesUp_pure ((hsame value).trans hfailed)

/-- A question ends with the failure of its own answer. -/
theorem stops_put (request : Request) {ending : request.Answer → Option Error}
    (h : ∀ answer, Exchange.failure? ⟨request, answer⟩ = ending answer) :
    Stops ending (Dialogue.put (A := Request.Answer) request) := by
  intro exchanges answer hruns
  obtain rfl := Dialogue.runs_put_iff.mp hruns
  exact ⟨fun error hfailed => ⟨(h answer).symm.trans hfailed, fun _ hmem =>
    absurd hmem List.not_mem_nil⟩, trivial⟩

end HostDialogue

/-! ## Programs -/

namespace Host

open HostDialogue (GivesUp stops_put)

variable {α β : Type}

/-- Whoever answers: the program ends with the first failure of the cable, and does not call it
again. -/
def Stops (program : Host α) : Prop :=
  HostDialogue.Stops failure? (ExceptT.run program)

theorem stops_pure (value : α) : Stops (pure value : Host α) :=
  HostDialogue.stops_pure _

theorem stops_throw (error : Error) : Stops (throw error : Host α) :=
  HostDialogue.stops_pure _

/-- A sequence stops if its parts do: after a failure of the first part the second is not run. -/
theorem Stops.bind {program : Host α} {next : α → Host β} (h : Stops program)
    (hnext : ∀ value, Stops (next value)) : Stops (program >>= next) := by
  refine HostDialogue.Stops.bind h (fun result hok => ?_) fun result error hfailed => ?_
  · cases result with
    | ok value => exact hnext value
    | error error => cases hok
  · cases result with
    | ok value => cases hfailed
    | error error' => exact HostDialogue.givesUp_pure hfailed

/-- A handler that gives up with the failure it is handed does not keep a program from stopping. -/
theorem Stops.tryCatch {program : Host α} {handle : Error → Host α}
    (h : Stops program)
    (hhandle : ∀ error, GivesUp failure? error (ExceptT.run (handle error))) :
    Stops (MonadExcept.tryCatch program handle) := by
  refine HostDialogue.Stops.bind h (fun result hok => ?_) fun result error hfailed => ?_
  · cases result with
    | ok value => exact HostDialogue.stops_pure _
    | error error => cases hok
  · cases result with
    | ok value => cases hfailed
    | error error' =>
      obtain rfl := Option.some.inj hfailed
      exact hhandle error'

/-- Reporting a failure and throwing it again is giving up. -/
theorem Stops.rethrow {program : Host α} (h : Stops program) (report : Request)
    (hreport : report.isCall = false) :
    Stops (MonadExcept.tryCatch program fun error => do
      let _ ← ask report
      throw error) := by
  refine h.tryCatch fun error exchanges result hruns => ?_
  obtain ⟨_, _, _, rfl, hask, hthrow⟩ := Dialogue.runs_bind_iff.mp hruns
  obtain ⟨_, answer, _, rfl, hput, hdone⟩ := Dialogue.runs_bind_iff.mp hask
  obtain rfl := Dialogue.runs_put_iff.mp hput
  obtain ⟨rfl, rfl⟩ := Dialogue.runs_done_iff.mp hdone
  obtain ⟨rfl, rfl⟩ := Dialogue.runs_done_iff.mp hthrow
  refine ⟨rfl, fun exchange hmem => ?_⟩
  rw [show exchange = ⟨report, answer⟩ by simpa using hmem]
  exact hreport

/-! ### Calls -/

/-- What cannot fail is asked as it is. -/
theorem stops_ask (request : Request)
    (h : ∀ answer, Exchange.failure? ⟨request, answer⟩ = none) :
    Stops (ask request) := by
  have hput : HostDialogue.Stops (fun _ => none)
      (Dialogue.put (A := Request.Answer) request) := stops_put request h
  exact hput.bind (fun _ _ => HostDialogue.stops_pure _) fun _ _ hfailed => by cases hfailed

theorem stops_log (level : LogLevel) (text : String) : Stops (log level text) :=
  stops_ask _ fun _ => rfl

theorem stops_records (level : LogLevel) : Stops (records level) :=
  stops_ask _ fun _ => rfl

theorem stops_progress (report : Progress) : Stops (progress report) :=
  stops_ask _ fun _ => rfl

theorem stops_clockFrequency : Stops clockFrequency :=
  stops_ask (.cable .clockFrequency) fun _ => rfl

theorem stops_sleep (milliseconds : UInt32) : Stops (sleep milliseconds) :=
  stops_ask (.cable (.sleep milliseconds)) fun _ => rfl

/-- A shift of the instruction register ends as its one call does. So do the calls below. -/
theorem stops_shiftIr (data : Bytes) (bits : Nat) : Stops (shiftIr data bits) :=
  stops_put (.cable (.shiftIr data bits)) fun _ => rfl

theorem stops_setState (state : TapState) : Stops (setState state) :=
  stops_put (.cable (.setState state)) fun _ => rfl

theorem stops_toggleClock (cycles : UInt32) : Stops (toggleClock cycles) :=
  stops_put (.cable (.toggleClock cycles)) fun _ => rfl

theorem stops_flush : Stops flush :=
  stops_put (.cable .flush) fun _ => rfl

theorem stops_setClockFrequency (hertz : UInt32) :
    Stops (setClockFrequency hertz) :=
  stops_put (.cable (.setClockFrequency hertz)) fun _ => rfl

/-- A scan hands on the failure of its call, and asks nothing after it. -/
theorem stops_shiftDr (scan : Scan) : Stops (shiftDr scan) := by
  have hcall : Stops (ExceptT.mk (call (.shiftDr scan)) : Host Bytes) :=
    stops_put (.cable (.shiftDr scan)) fun _ => rfl
  exact hcall.bind fun _ => stops_pure _

/-- When a stage fails, that is reported and the failure thrown again, with no further call. -/
theorem stops_reporting {body : Host Unit} (stage : Stage) (total : Nat)
    (h : Stops body) : Stops (reporting stage total body) :=
  (stops_progress _).bind fun _ =>
    (h.rethrow (.progress (.finish false)) rfl).bind fun _ => stops_progress _

/-! ### Over a cable -/

/-- Over every cable, a call that fails is the last one that the program makes, and its failure is
what the program ends with. Over any other cable that gives the same answers up to there, the
program has made the same calls up to there, and makes the one that has failed as well. -/
def FailStop (program : Host α) : Prop :=
  ∀ ⦃σ : Type⦄ (cable : Cable σ) (filter : LogFilter) (device : σ)
    ⦃past later : List (Exchange Request Request.Answer)⦄
    ⦃exchange : Exchange Request Request.Answer⦄ ⦃error : Error⦄,
    (run cable filter program device).exchanges = past ++ exchange :: later →
    Exchange.failure? exchange = some error →
    (run cable filter program device).result = .error error ∧
      (∀ next ∈ later, next.1.isCall = false) ∧
      ∀ ⦃τ : Type⦄ (other : Cable τ) (twin : τ), (surroundings other filter).Gives twin past →
        ∃ answer rest, (run other filter program twin).exchanges =
          past ++ ⟨exchange.1, answer⟩ :: rest

/-- What stops whoever answers also stops over every cable; and over a cable that gives the same
answers up to the failure, it has put the same questions. -/
theorem failStop_of_stops {program : Host α} (h : Stops program) : FailStop program := by
  intro σ cable filter device past later exchange error hsplit hfailed
  obtain ⟨hruns, hgives⟩ := runs_gives_run cable filter program device
  rw [hsplit] at hruns hgives
  obtain ⟨hending, hsilent⟩ := (h hruns).of_split hfailed
  refine ⟨?_, hsilent, fun τ other twin hpast => ?_⟩
  · cases hresult : (run cable filter program device).result with
    | ok value =>
      rw [hresult] at hending
      cases hending
    | error error' =>
      rw [hresult] at hending
      rw [Option.some.inj hending]
  · obtain ⟨hruns', hgives'⟩ := runs_gives_run other filter program twin
    exact hruns.follows hruns' hpast hgives'

end Host

/-! ## Cables that fail -/

/-- The reply of a call that fails. Some calls cannot. -/
def CableCall.failWith? (error : Error) : (call : CableCall) → Option call.Reply
  | .shiftIr _ _ => some (.error error : Except Error Unit)
  | .shiftDr _ => some (.error error : Except Error Bytes)
  | .setState _ => some (.error error : Except Error Unit)
  | .toggleClock _ => some (.error error : Except Error Unit)
  | .flush => some (.error error : Except Error Unit)
  | .setClockFrequency _ => some (.error error : Except Error UInt32)
  | .readIdcode => some (.error error : Except Error UInt32)
  | .clockFrequency => none
  | .sleep _ => none

/-- The cable that fails once: of the calls that can fail, the one at which the count that is kept
comes to its end fails before it has reached the device. All others are answered by `cable`. -/
def Cable.failingOnce {σ : Type} (cable : Cable σ) (error : Error) : Cable (σ × Nat) :=
  fun call (device, left) =>
    match call.failWith? error, left with
    | some reply, 1 => (reply, device, 0)
    | some _, left =>
      let (reply, device) := cable call device
      (reply, device, left - 1)
    | none, left =>
      let (reply, device) := cable call device
      (reply, device, left)

/-- The request is a call that can fail. -/
def Request.isFallible : Request → Bool
  | .cable call => (call.failWith? .transport).isSome
  | _ => false

/-- Up to the call that fails, the cable that fails once answers like the one that does not. -/
theorem Cable.gives_of_failingOnce {σ : Type} {cable : Cable σ} {error : Error}
    {filter : LogFilter} {device : σ} {left : Nat}
    {exchanges : List (Exchange Request Request.Answer)}
    (hfew : exchanges.countP (·.1.isFallible) < left)
    (h : (Host.surroundings (cable.failingOnce error) filter).Gives (device, left) exchanges) :
    (Host.surroundings cable filter).Gives device exchanges := by
  -- On the exchanges, with the count of calls that are left.
  induction exchanges generalizing device left with
  | nil => trivial
  | cons exchange exchanges ih =>
    obtain ⟨question, answer⟩ := exchange
    rw [List.countP_cons] at hfew
    obtain ⟨hanswer, hrest⟩ := h
    cases question with
    | cable call =>
      -- The call is not the one that the count ends at, so both cables answer it alike.
      have hsame : ∃ left', exchanges.countP (·.1.isFallible) < left' ∧
          cable.failingOnce error call (device, left) =
            ((cable call device).1, (cable call device).2, left') := by
        cases call with
        | clockFrequency | sleep => exact ⟨left, hfew, rfl⟩
        | _ =>
          replace hfew : exchanges.countP (·.1.isFallible) + 1 < left := hfew
          obtain _ | _ | left := left
          · omega
          · omega
          · exact ⟨left + 1, by omega, rfl⟩
      obtain ⟨left', hfew', hsame⟩ := hsame
      simp only [Host.surroundings, hsame] at hanswer hrest
      exact ⟨hanswer, ih hfew' hrest⟩
    | _ => exact ⟨hanswer, ih (by simpa [Request.isFallible] using hfew) hrest⟩

end FpgaProgrammer
