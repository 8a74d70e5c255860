import Mathlib.Data.Nat.Digits.Defs
import FpgaProgrammer.Proofs.Bytes.Words
import FpgaProgrammer.Proofs.Calls.Seen
import FpgaProgrammer.Proofs.Failures.Operations
import FpgaProgrammer.Proofs.Simulator.Status

/-!
# How often a wait looks at the status

A wait for a status looks at it until it shows what is awaited, but no more often than it may. What
the looks would show, if they went on, is a stream that the cable determines:

* `Cable.look`: what a look at the status comes to, call by call, over any cable.
* `Cable.statusAt`: what one look after the other comes to.
* `Device.Waited`: what a wait comes to, told of such a stream. The first look that does not miss
  what is awaited is the last one, whether it has shown it or failed.
* `Device.waited_awaitStatus`: every wait is such, by induction on the looks that it may take.
* `Device.awaitStatus_exact`: the bound and the end of every wait, and from it what the gate has
  last shown when it is opened or closed.
-/

namespace FpgaProgrammer

/-! ## What a look at the status comes to -/

/-- The status whose digits in base 256 these bytes are, the least significant one first. -/
def Status.ofDigits (bytes : Bytes) : Status :=
  ⟨(Nat.ofDigits 256 (bytes.map UInt8.toNat)).toUInt32⟩

/-- The word of four bytes has them as its digits. -/
theorem Status.ofDigits_eq {bytes : Bytes} (h : bytes.length = 4) :
    Status.ofDigits bytes = ⟨Bytes.wordLE bytes⟩ := by
  obtain ⟨a, b, c, d, rfl⟩ : ∃ a b c d, bytes = [a, b, c, d] := by
    match bytes, h with
    | [a, b, c, d], _ => exact ⟨a, b, c, d, rfl⟩
  have hword := (Bytes.wordLE [a, b, c, d]).toNat_lt
  rw [Bytes.toNat_wordLE] at hword
  refine congrArg Status.mk (UInt32.toNat_inj.mp ?_)
  rw [Bytes.toNat_wordLE, Nat.toUInt32_eq, UInt32.toNat_ofNat']
  simp only [List.map_cons, List.map_nil, Nat.ofDigits_cons, Nat.ofDigits_nil]
  omega

namespace Cable

variable {σ : Type} (cable : Cable σ)

/-- What comes of a look at the status. The instruction is selected, it is given its clocks, and 32
bits are scanned. The first of these calls that fails is what comes of the look. -/
def look (device : σ) : Except Error Status := do
  let selected := (cable (.shiftIr [Instruction.readStatus.opcode] 8) device).2
  let settled := (cable (.toggleClock Device.settlingClocks) selected).2
  ((cable (.shiftIr [Instruction.readStatus.opcode] 8) device).1 : Except Error Unit)
  ((cable (.toggleClock Device.settlingClocks) selected).1 : Except Error Unit)
  let captured ← ((cable (.shiftDr Host.registerScan) settled).1 : Except Error Bytes)
  pure (Status.ofDigits (Bytes.fit 4 captured))

/-- What comes of a look after so many others. -/
def statusAt (device : σ) (looks : Nat) : Except Error Status :=
  cable.look (cable.after device (Host.looksCalls looks))

end Cable

namespace Host

variable {σ : Type} {cable : Cable σ} {filter : LogFilter} {device : σ}
  {exchanges : List (Exchange Request Request.Answer)}

/-- What the program that reads the status ends with is what comes of a look. -/
theorem eval_readStatus (cable : Cable σ) (filter : LogFilter) (device : σ) :
    (eval (surroundings cable filter) Device.readStatus device).1 = cable.look device := by
  -- Written as one sequence of calls, the program goes through them as the look does.
  simp only [Device.readStatus, Device.readRegister, Device.sendOpcode, shiftDr, bind_assoc,
    pure_bind, eval_bind_result, Cable.look, Status.ofDigits_eq (Bytes.length_fit 4 _)]
  rfl

/-- The cable fails after so many looks at the status, in the midst of the next one: the calls up to
the failing one are those of the looks, and it is the last one. -/
def BreaksOff (looks : Nat) (exchanges : List (Exchange Request Request.Answer)) (error : Error) :
    Prop :=
  ∃ past exchange later, exchanges = past ++ exchange :: later ∧
    Exchange.failure? exchange = some error ∧
    looksCalls looks <+: callsOf past ∧ callsOf exchanges <+: looksCalls (looks + 1) ∧
    ∀ next ∈ later, next.1.isCall = false

/-- What comes after a look breaks off one look later. -/
theorem BreaksOff.after_look {look : List (Exchange Request Request.Answer)} {looks : Nat}
    {error : Error} (h : BreaksOff looks exchanges error) (hlook : callsOf look = lookCalls) :
    BreaksOff (looks + 1) (look ++ exchanges) error := by
  obtain ⟨past, exchange, later, rfl, hfailed, hbefore, hcalls, hsilent⟩ := h
  refine ⟨look ++ past, exchange, later, by simp, hfailed, ?_, ?_, hsilent⟩
  · rw [looksCalls_succ, callsOf_append, hlook]
    exact (List.prefix_append_right_inj _).mpr hbefore
  · rw [looksCalls_succ, callsOf_append, hlook]
    exact (List.prefix_append_right_inj _).mpr hcalls

/-- Over a cable, reading the status makes the calls of a look, and ends with what comes of it. A
look that fails breaks off. -/
theorem Runs.of_look {result : Except Error Status}
    (hruns : Runs Device.readStatus exchanges result)
    (hgives : (surroundings cable filter).Gives device exchanges) :
    result = cable.look device ∧
      ((∃ status, result = .ok status) → callsOf exchanges = lookCalls) ∧
      ∀ error, result = .error error → BreaksOff 0 exchanges error := by
  have hresult : result = cable.look device := by
    rw [← eval_readStatus cable filter device]
    exact congrArg Prod.fst (hruns.run_eq hgives).symm
  have hsees : Sees blind Device.readStatus lookCalls fun _ _ => True := sees_readStatus
  refine ⟨hresult, ?_, ?_⟩
  · rintro ⟨status, rfl⟩
    exact (hsees.of_ok hruns).1
  · rintro error rfl
    obtain ⟨hcalls, exchange, hmem, hfailed⟩ := hsees.of_error hruns
    obtain ⟨past, later, rfl⟩ := List.append_of_mem hmem
    refine ⟨past, exchange, later, rfl, hfailed, List.nil_prefix, ?_, ?_⟩
    · simpa [looksCalls] using hcalls
    · exact ((closed_stops.readStatus (stops_send _)) hruns).of_split hfailed |>.2

end Host

/-! ## What a wait comes to -/

namespace Device

open Host (callsOf lookCalls looksCalls sendCalls BreaksOff)

/-- The look has shown the awaited bits under the mask. -/
def Shows (mask expected : Status) (look : Except Error Status) : Prop :=
  ∃ status, look = .ok status ∧ status.bits &&& mask.bits = expected.bits

/-- The look has shown other bits than the awaited ones. -/
def Misses (mask expected : Status) (look : Except Error Status) : Prop :=
  ∃ status, look = .ok status ∧ status.bits &&& mask.bits ≠ expected.bits

/-- What a wait has come to that may take so many looks, told of what would come of one look after
the other. -/
structure Waited (mask expected : Status) (looks : Nat → Except Error Status) (limit : Nat)
    (exchanges : List (Exchange Request Request.Answer)) (result : Except Error Unit) : Prop where
  /-- The first look that shows what is awaited is the last one. -/
  found : ∀ j < limit, Shows mask expected (looks j) →
    (∀ i < j, Misses mask expected (looks i)) →
    result = .ok () ∧ callsOf exchanges = looksCalls (j + 1)
  /-- If all of them miss it, as many looks are taken as there may be. -/
  missed : (∀ i < limit, Misses mask expected (looks i)) →
    result = .error .timeout ∧ callsOf exchanges = looksCalls limit
  /-- A look that fails is the last one as well. -/
  failed : ∀ j < limit, ∀ error, looks j = .error error →
    (∀ i < j, Misses mask expected (looks i)) →
    result = .error error ∧ BreaksOff j exchanges error

section Waits

variable {mask expected : Status} {looks : Nat → Except Error Status} {limit : Nat}
  {exchanges : List (Exchange Request Request.Answer)} {result : Except Error Unit}

/-- A look that shows what is expected does not miss it. -/
theorem Shows.not_misses {look : Except Error Status} (h : Shows mask expected look) :
    ¬ Misses mask expected look := by
  rintro ⟨other, hother, hmissed⟩
  obtain ⟨status, rfl, hshown⟩ := h
  obtain rfl := Except.ok.inj hother
  exact hmissed hshown

/-- A look that fails misses nothing, so that no wait goes on after it. -/
theorem not_misses_of_error {look : Except Error Status} {error : Error} (h : look = .error error) :
    ¬ Misses mask expected look := by
  rintro ⟨status, hok, -⟩
  cases h.symm.trans hok

/-- A look shows what is awaited, or misses it, or fails. -/
theorem shows_or_misses_or_fails (mask expected : Status) (look : Except Error Status) :
    Shows mask expected look ∨ Misses mask expected look ∨ ∃ error, look = .error error := by
  cases look with
  | error error => exact .inr (.inr ⟨error, rfl⟩)
  | ok status =>
    by_cases hshown : status.bits &&& mask.bits = expected.bits
    · exact .inl ⟨status, rfl, hshown⟩
    · exact .inr (.inl ⟨status, rfl, hshown⟩)

/-- If the first look does not miss, no look after it matters. -/
theorem eq_zero_of_not_misses {j : Nat} (h : ¬ Misses mask expected (looks 0))
    (hearlier : ∀ i < j, Misses mask expected (looks i)) : j = 0 :=
  Nat.eq_zero_of_not_pos fun hpos => h (hearlier 0 hpos)

/-- A wait that may not look at all times out. -/
theorem waited_zero (hcalls : callsOf exchanges = []) :
    Waited mask expected looks 0 exchanges (.error .timeout) where
  found _ hj := absurd hj (Nat.not_lt_zero _)
  missed _ := ⟨rfl, hcalls⟩
  failed _ hj := absurd hj (Nat.not_lt_zero _)

/-- A wait is over with a first look that shows what is awaited. -/
theorem waited_of_shows (h : Shows mask expected (looks 0))
    (hcalls : callsOf exchanges = lookCalls) :
    Waited mask expected looks (limit + 1) exchanges (.ok ()) where
  found j _ _ hearlier := by
    obtain rfl := eq_zero_of_not_misses h.not_misses hearlier
    exact ⟨rfl, by simpa [looksCalls] using hcalls⟩
  missed hall := absurd (hall 0 limit.succ_pos) h.not_misses
  failed j _ error hfailed hearlier := by
    obtain rfl := eq_zero_of_not_misses h.not_misses hearlier
    obtain ⟨status, hok, -⟩ := h
    cases hok.symm.trans hfailed

/-- A wait is over with a first look that fails. -/
theorem waited_of_fails {error : Error} (h : looks 0 = .error error)
    (hbroken : BreaksOff 0 exchanges error) :
    Waited mask expected looks (limit + 1) exchanges (.error error) where
  found j _ hshown hearlier := by
    obtain rfl := eq_zero_of_not_misses (not_misses_of_error h) hearlier
    obtain ⟨status, hok, -⟩ := hshown
    cases h.symm.trans hok
  missed hall := absurd (hall 0 limit.succ_pos) (not_misses_of_error h)
  failed j _ error' hfailed hearlier := by
    obtain rfl := eq_zero_of_not_misses (not_misses_of_error h) hearlier
    obtain rfl := Except.error.inj (h.symm.trans hfailed)
    exact ⟨rfl, hbroken⟩

/-- After a look that misses, a wait goes on with the looks that come then, one less of them. -/
theorem Waited.after_look {look : List (Exchange Request Request.Answer)}
    (h : Waited mask expected (fun i => looks (i + 1)) limit exchanges result)
    (hmissed : Misses mask expected (looks 0)) (hlook : callsOf look = lookCalls) :
    Waited mask expected looks (limit + 1) (look ++ exchanges) result := by
  have hcalls : ∀ count, callsOf exchanges = looksCalls count →
      callsOf (look ++ exchanges) = looksCalls (count + 1) := fun count hrest => by
    rw [Host.callsOf_append, hlook, hrest, Host.looksCalls_succ]
  -- The first look is no end of the wait, so each of the ends is one of the rest, one look later.
  constructor
  · intro j hj hshown hearlier
    obtain _ | j := j
    · exact absurd hmissed hshown.not_misses
    · obtain ⟨hok, hrest⟩ := h.found j (Nat.lt_of_succ_lt_succ hj) hshown fun i hi =>
        hearlier (i + 1) (Nat.succ_lt_succ hi)
      exact ⟨hok, hcalls _ hrest⟩
  · intro hall
    obtain ⟨htimeout, hrest⟩ := h.missed fun i hi => hall (i + 1) (Nat.succ_lt_succ hi)
    exact ⟨htimeout, hcalls _ hrest⟩
  · intro j hj error hfailed hearlier
    obtain _ | j := j
    · exact absurd hmissed (not_misses_of_error hfailed)
    · obtain ⟨herror, hbroken⟩ := h.failed j (Nat.lt_of_succ_lt_succ hj) error hfailed fun i hi =>
        hearlier (i + 1) (Nat.succ_lt_succ hi)
      exact ⟨herror, hbroken.after_look hlook⟩

/-- A wait that succeeds has taken a last look, which has shown what is awaited. -/
theorem Waited.of_ok (h : Waited mask expected looks limit exchanges (.ok ())) :
    ∃ j < limit, Shows mask expected (looks j) ∧ (∀ i < j, Misses mask expected (looks i)) ∧
      callsOf exchanges = looksCalls (j + 1) := by
  by_cases hall : ∀ i < limit, Misses mask expected (looks i)
  · cases (h.missed hall).1
  -- The first look that does not miss is the one.
  simp only [not_forall] at hall
  classical
  obtain ⟨hj, hnot⟩ := Nat.find_spec hall
  have hearlier : ∀ i < Nat.find hall, Misses mask expected (looks i) := fun i hi => by
    by_contra hmisses
    exact Nat.find_min hall hi ⟨hi.trans hj, hmisses⟩
  rcases shows_or_misses_or_fails mask expected (looks (Nat.find hall)) with
    hshown | hmissed | ⟨error, hfailed⟩
  · exact ⟨_, hj, hshown, hearlier, (h.found _ hj hshown hearlier).2⟩
  · exact absurd hmissed hnot
  · cases (h.failed _ hj error hfailed hearlier).1

end Waits

/-! ## Waits over a cable -/

section Cables

variable {σ : Type} {cable : Cable σ} {filter : LogFilter} {device : σ} {mask expected : Status}
  {limit : Nat} {exchanges : List (Exchange Request Request.Answer)} {result : Except Error Unit}

/-- A wait that may look at the status fails with the look, or it ends or goes on with what the
look has shown. -/
theorem awaitStatus_cases
    (hruns : Host.Runs (awaitStatus mask expected (limit + 1)) exchanges result) :
    (∃ error, result = .error error ∧ Host.Runs readStatus exchanges (.error error)) ∨
    ∃ status look note rest, exchanges = look ++ note ++ rest ∧
      Host.Runs readStatus look (.ok status) ∧ callsOf note = [] ∧
      ((status.bits &&& mask.bits = expected.bits ∧ rest = [] ∧ result = .ok ()) ∨
        (status.bits &&& mask.bits ≠ expected.bits ∧
          Host.Runs (awaitStatus mask expected limit) rest result)) := by
  rcases Host.runs_bind_iff.mp hruns with ⟨status, look, _, rfl, hlook, hnoted⟩ | hfailed
  case inr => exact .inl hfailed
  obtain ⟨answer, rest, rfl, hrest⟩ := hnoted.of_ask_bind
  refine .inr ⟨status, look, [⟨_, answer⟩], rest, by simp, hlook, rfl, ?_⟩
  -- The log has been written, and the look decides.
  by_cases hshown : status.bits &&& mask.bits = expected.bits
  · rw [if_pos (beq_iff_eq.mpr hshown)] at hrest
    obtain ⟨rfl, rfl⟩ := Host.runs_pure_iff.mp hrest
    exact .inl ⟨hshown, rfl, rfl⟩
  · rw [if_neg fun hequal => hshown (beq_iff_eq.mp hequal)] at hrest
    exact .inr ⟨hshown, hrest⟩

/-- Every run of a wait stops at the first look that does not miss. -/
theorem waited_awaitStatus (hruns : Host.Runs (awaitStatus mask expected limit) exchanges result)
    (hgives : (Host.surroundings cable filter).Gives device exchanges) :
    Waited mask expected (cable.statusAt device) limit exchanges result := by
  -- On the looks that are left: one that misses leaves one less, and the far end where the stream
  -- of looks goes on.
  induction limit generalizing device exchanges with
  | zero =>
    obtain ⟨note, _, rfl, hthrow⟩ := hruns.of_ask_bind
    obtain ⟨rfl, rfl⟩ := Host.runs_throw_iff.mp hthrow
    exact waited_zero rfl
  | succ limit ih =>
    rcases awaitStatus_cases hruns with
      ⟨error, rfl, hlook⟩ | ⟨status, look, note, rest, rfl, hlook, hnote, hend⟩
    · obtain ⟨hfailed, -, hbroken⟩ := hlook.of_look hgives
      exact waited_of_fails hfailed.symm (hbroken error rfl)
    · obtain ⟨hfirst, hrest⟩ := Handler.gives_append.mp hgives
      obtain ⟨hstatus, hcalls, -⟩ := hlook.of_look (Handler.gives_append.mp hfirst).1
      have hnoted : callsOf (look ++ note) = lookCalls := by
        rw [Host.callsOf_append, hcalls ⟨status, rfl⟩, hnote, List.append_nil]
      rcases hend with ⟨hshown, rfl, rfl⟩ | ⟨hmissed, hruns⟩
      · rw [List.append_nil]
        exact waited_of_shows ⟨status, hstatus.symm, hshown⟩ hnoted
      · rw [Host.replay_eq_after, hnoted] at hrest
        have hnext : cable.statusAt (cable.after device lookCalls) =
            fun i => cable.statusAt device (i + 1) := by
          simp [funext_iff, Cable.statusAt, Host.looksCalls_succ]
        exact (hnext ▸ ih hruns hrest).after_look ⟨status, hstatus.symm, hmissed⟩ hnoted

/-- A wait that succeeds after a script has seen what it awaits in the last look. Beside those of
the script and of the looks, there are no calls. -/
theorem last_look {program : Host Unit} {calls : List CableCall} {post : List Unit → Unit → Prop}
    (h : Host.Sees Host.blind program calls post)
    (hok : (Host.run cable filter (program >>= fun _ => awaitStatus mask expected limit)
      device).result = .ok ()) :
    ∃ j < limit, ∃ status, cable.statusAt (cable.after device calls) j = .ok status ∧
      status.bits &&& mask.bits = expected.bits ∧
      callsOf (Host.run cable filter (program >>= fun _ => awaitStatus mask expected limit)
        device).exchanges = calls ++ looksCalls (j + 1) := by
  obtain ⟨hruns, hgives⟩ := Host.runs_gives_run cable filter
    (program >>= fun _ => awaitStatus mask expected limit) device
  rw [hok] at hruns
  obtain ⟨⟨⟩, script, rest, hsplit, hscript, hwait⟩ := hruns.of_bind
  rw [hsplit] at hgives ⊢
  -- The wait begins where the script has led.
  have hcalls := (h.of_ok hscript).1
  have hlater := (Handler.gives_append.mp hgives).2
  rw [Host.replay_eq_after, hcalls] at hlater
  obtain ⟨j, hj, ⟨status, hlook, hshown⟩, -, hlooks⟩ := (waited_awaitStatus hwait hlater).of_ok
  exact ⟨j, hj, status, hlook, hshown, by rw [Host.callsOf_append, hcalls, hlooks]⟩

/-- No look shows what is awaited if it has a bit that the mask does not have. -/
theorem not_shows_of_bit_outside {look : Except Error Status} {bit : Nat}
    (hbit : expected.bits.toNat.testBit bit = true) (hmask : mask.bits.toNat.testBit bit = false) :
    ¬ Shows mask expected look := by
  rintro ⟨status, -, hshown⟩
  rw [← hshown, UInt32.toNat_and, Nat.testBit_and, hmask, Bool.and_false] at hbit
  cases hbit

/-- A wait for a status is bounded and exact, over every cable. Each look is an instruction, five
clocks and a scan of 32 ones, and nothing else is sent. The first look that does not miss what is
awaited is the last one, and without one there are as many looks as there may be. A bit outside the
mask is never seen. If the gate is opened or closed, the last look has shown it so. -/
theorem awaitStatus_exact {σ : Type} (cable : Cable σ) (filter : LogFilter) (device : σ) :
    lookCalls = [.shiftIr [0x41] 8, .toggleClock 5,
      .shiftDr ⟨some [0xFF, 0xFF, 0xFF, 0xFF], some 4, 32, .runTestIdle⟩] ∧
    (∀ (mask expected : Status) (limit : Nat),
      let wait := Host.run cable filter (awaitStatus mask expected limit) device
      Waited mask expected (cable.statusAt device) limit wait.exchanges wait.result ∧
      ∀ bit, expected.bits.toNat.testBit bit = true → mask.bits.toNat.testBit bit = false →
        wait.result ≠ .ok ()) ∧
    (∀ limit : Nat,
      let opened := Host.run cable filter (enableConfig limit) device
      let script := sendCalls .configEnable
      opened.result = .ok () → ∃ j < limit, ∃ status,
        cable.statusAt (cable.after device script) j = .ok status ∧
        status.has .systemEditMode = true ∧
        callsOf opened.exchanges = script ++ looksCalls (j + 1)) ∧
    ∀ limit : Nat,
      let closed := Host.run cable filter (disableConfig limit) device
      let script := sendCalls .configDisable ++ sendCalls .noop
      closed.result = .ok () → ∃ j < limit, ∃ status,
        cable.statusAt (cable.after device script) j = .ok status ∧
        status.has .systemEditMode = false ∧
        callsOf closed.exchanges = script ++ looksCalls (j + 1) := by
  refine ⟨rfl, fun mask expected limit => ?_, fun limit hok => ?_, fun limit hok => ?_⟩
  · obtain ⟨hruns, hgives⟩ :=
      Host.runs_gives_run cable filter (awaitStatus mask expected limit) device
    have hwaited := waited_awaitStatus hruns hgives
    refine ⟨hwaited, fun bit hbit hmask hok => ?_⟩
    obtain ⟨_, -, hshown, -⟩ := Waited.of_ok (hok ▸ hwaited)
    exact not_shows_of_bit_outside hbit hmask hshown
  · obtain ⟨j, hj, status, hlook, hshown, hcalls⟩ := last_look (Host.sees_send _) hok
    refine ⟨j, hj, status, hlook, ?_, hcalls⟩
    rw [← Status.and_mask_eq_mask]
    exact beq_iff_eq.mpr hshown
  · -- Two instructions go before the wait. They are its script if they are taken together.
    have hscript : Host.Sees Host.blind (send .configDisable >>= fun _ => send .noop)
        (sendCalls .configDisable ++ sendCalls .noop) fun seen _ => seen = [] := by
      refine (Host.sees_send _).bind fun _ _ hnone => ?_
      rw [hnone]
      exact Host.sees_send _
    have hsame : disableConfig limit = (send .configDisable >>= fun _ => send .noop) >>= fun _ =>
        awaitStatus (only .systemEditMode) nothing limit := (bind_assoc ..).symm
    rw [hsame] at hok ⊢
    obtain ⟨j, hj, status, hlook, hshown, hcalls⟩ := last_look hscript hok
    refine ⟨j, hj, status, hlook, ?_, hcalls⟩
    rw [← Bool.not_eq_true', ← Status.and_mask_eq_nothing]
    exact beq_iff_eq.mpr hshown

/-- An erase that is over with the third look. A wait that may look five times sees it, one that may
look twice does not, and over a cable that fails at the fifth call it breaks off in the second look.
Nobody sees a flag outside the mask. The gate is opened, and seen open at once. -/
theorem awaitStatus_exact_sim :
    let cable := Simulator.cable.failingOnce .transport
    let erasing := { Simulator.powerUp {} with eraseCountdown? := some 2 }
    let wait (limit left : Nat) := Host.run cable none
      (awaitStatus (only .memoryErase) (only .memoryErase) limit) (erasing, left)
    ((wait 5 0).result = .ok () ∧ callsOf (wait 5 0).exchanges = looksCalls 3) ∧
    ((wait 2 0).result = .error .timeout ∧ callsOf (wait 2 0).exchanges = looksCalls 2) ∧
    ((wait 5 5).result = .error .transport ∧ BreaksOff 1 (wait 5 5).exchanges .transport) ∧
    (Host.run cable none (awaitStatus nothing (only .memoryErase) 5) (erasing, 0)).result ≠
      .ok () ∧
    ∃ j < 1, ∃ status,
      cable.statusAt (cable.after (erasing, 0) (sendCalls .configEnable)) j = .ok status ∧
      status.has .systemEditMode = true ∧
      callsOf (Host.run cable none (enableConfig 1) (erasing, 0)).exchanges =
        sendCalls .configEnable ++ looksCalls (j + 1) := by
  intro cable erasing wait
  obtain ⟨-, hwaits, hopens, -⟩ := awaitStatus_exact cable none (erasing, 0)
  obtain ⟨-, hbreaks, -, -⟩ := awaitStatus_exact cable none (erasing, 5)
  -- The status also shows that the device has just been powered up, outside the mask.
  have hshows : cable.statusAt (erasing, 0) 2 = .ok ⟨0x10020⟩ := by decide +kernel
  have hfails : cable.statusAt (erasing, 5) 1 = .error .transport := by decide +kernel
  have hmisses : ∀ i < 2, Misses (only .memoryErase) (only .memoryErase)
      (cable.statusAt (erasing, 0) i)
    | 0, _ | 1, _ => ⟨⟨0x10000⟩, by decide +kernel, by decide⟩
  have hmissed : ∀ i < 1, Misses (only .memoryErase) (only .memoryErase)
      (cable.statusAt (erasing, 5) i)
    | 0, _ => ⟨⟨0x10000⟩, by decide +kernel, by decide⟩
  refine ⟨?_, ?_, ?_, ?_, hopens 1 (by decide +kernel)⟩
  · exact (hwaits _ _ 5).1.found 2 (by decide) ⟨_, hshows, by decide⟩ hmisses
  · exact (hwaits _ _ 2).1.missed hmisses
  · exact (hbreaks _ _ 5).1.failed 1 (by decide) _ hfails hmissed
  · exact (hwaits _ _ 5).2 5 (by decide) (by decide)

end Cables

end Device

end FpgaProgrammer
