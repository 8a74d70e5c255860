import FpgaProgrammer.Proofs.Spi.Waveform

/-!
# How many samples a poll takes

A poll compares each sample with what it awaits before it asks whether it may take another one. So
it takes the first sample that is awaited and no more, or as many as its timeout says, but one at
least.

* `Poll.Decides`: the values that a poll has sampled, and what it ends with.
* `Poll.Exact`: the same, told of all the values that it would sample if it went on.
* `runs_watch`: what every run of a poll comes to, if a sample makes the same calls whatever it
  brings back.
* `BitBang.Polls`, `ShiftRegister.Polls`: what this is with the two encodings. When pins are
  toggled, the chip is released whatever the poll has come to.
* `await_polls`: every run of a poll is such.
-/

namespace FpgaProgrammer

/-- What is sampled in a scan that is read: the bit on the data pin of the flash. -/
def SpiPins.whenRead (pins : SpiPins) (scan : Scan) (received : Bytes) : Option Bool :=
  scan.rxLength?.map fun _ => pins.sample (received.headD 0)

/-- In the scans of a poll, a bit is sampled exactly where one is read. -/
theorem SpiPins.samples_whenRead (pins : SpiPins) : pins.Samples pins.whenRead :=
  ⟨fun _ _ => rfl, fun _ _ => rfl, fun _ => rfl⟩

namespace SpiEncoding

open Host (Sees callsOf seen Runs)

/-! ## Samples -/

namespace Poll

variable {poll : Poll} {values : List UInt8} {result : Except Error Unit}

/-- The value is the one that the poll looks for. -/
def Awaits (poll : Poll) (value : UInt8) : Prop :=
  value &&& poll.mask = poll.expected

/-- The number of samples that the poll takes at most. -/
def limit (poll : Poll) : Nat :=
  max 1 poll.timeout.toNat

/-- A poll that may take so many samples has sampled these values, and ends so. -/
inductive Decides (poll : Poll) : (most : Nat) → (values : List UInt8) →
    (result : Except Error Unit) → Prop where
  /-- The value is the awaited one. -/
  | found {most : Nat} {value : UInt8} (h : poll.Awaits value) :
      Decides poll (most + 1) [value] (.ok ())
  /-- The last sample that may be taken is not the awaited one. -/
  | missed {value : UInt8} (h : ¬ poll.Awaits value) : Decides poll 1 [value] (.error .spiTimeout)
  /-- Another sample is taken. -/
  | next {most : Nat} {value : UInt8} {values : List UInt8} {result : Except Error Unit}
      (h : ¬ poll.Awaits value) (rest : Decides poll most values result) :
      Decides poll (most + 1) (value :: values) result

/-- Of a stream of values, of which it may sample so many, the poll samples the first ones, up to
the first one that is awaited. If there is none, it samples as many as it may, and fails. -/
structure Exact (poll : Poll) (most : Nat) (stream : Nat → UInt8) (count : Nat)
    (result : Except Error Unit) : Prop where
  found : ∀ j < most, poll.Awaits (stream j) → (∀ i < j, ¬ poll.Awaits (stream i)) →
    result = .ok () ∧ count = j + 1
  missed : (∀ j < most, ¬ poll.Awaits (stream j)) →
    result = .error .spiTimeout ∧ count = most

/-- Whatever values would follow those that are sampled, the poll has stopped in time. -/
theorem Decides.exact {most : Nat} (h : poll.Decides most values result) {stream : Nat → UInt8}
    (hstream : ∀ i value, values[i]? = some value → value = stream i) :
    poll.Exact most stream values.length result := by
  induction h generalizing stream with
  | @found most value hawaits =>
    rw [hstream 0 value rfl] at hawaits
    refine ⟨fun j _ _ hfirst => ?_, fun hnone => absurd hawaits (hnone 0 (Nat.succ_pos _))⟩
    obtain rfl : j = 0 := Nat.eq_zero_of_not_pos fun hpos => hfirst 0 hpos hawaits
    exact ⟨rfl, rfl⟩
  | @missed value hmissed =>
    rw [hstream 0 value rfl] at hmissed
    refine ⟨fun j hj hawaits _ => ?_, fun _ => ⟨rfl, rfl⟩⟩
    obtain rfl : j = 0 := Nat.lt_one_iff.mp hj
    exact absurd hawaits hmissed
  | @next most value values result hmissed _ ih =>
    -- What is left of the stream is sampled by the rest of the poll.
    rw [hstream 0 value rfl] at hmissed
    have hrest : ∀ i value, values[i]? = some value → value = stream (i + 1) :=
      fun i value hvalue => hstream (i + 1) value hvalue
    obtain ⟨hfound, hnone⟩ := ih hrest
    constructor
    · intro j hj hawaits hfirst
      obtain _ | j := j
      · exact absurd hawaits hmissed
      · obtain ⟨hok, hcount⟩ := hfound j (Nat.lt_of_succ_lt_succ hj) hawaits fun i hi =>
          hfirst (i + 1) (Nat.succ_lt_succ hi)
        exact ⟨hok, congrArg (· + 1) hcount⟩
    · intro hmisses
      obtain ⟨hfailed, hcount⟩ := hnone fun j hj => hmisses (j + 1) (Nat.succ_lt_succ hj)
      exact ⟨hfailed, congrArg (· + 1) hcount⟩

/-- A poll that has come to an end fails with a timeout only. -/
theorem Decides.eq_timeout {most : Nat} {error : Error}
    (h : poll.Decides most values (.error error)) : error = .spiTimeout := by
  generalize hresult : (Except.error error : Except Error Unit) = result at h
  induction h with
  | found => cases hresult
  | missed => cases hresult; rfl
  | next _ _ ih => exact ih hresult

/-- No more values are sampled than there may be. -/
theorem Decides.length_le {most : Nat} (h : poll.Decides most values result) :
    values.length ≤ most := by
  induction h with
  | found => exact Nat.succ_le_succ (Nat.zero_le _)
  | missed => exact Nat.le_refl _
  | next _ _ ih => exact Nat.succ_le_succ ih

/-- The number of samples is a 32-bit number, as the time-out is. -/
theorem limit_lt (poll : Poll) : poll.limit < 2 ^ 32 :=
  Nat.max_lt.mpr ⟨by decide, poll.timeout.toNat_lt⟩

/-- A time-out of zero allows one sample, as one of one does. -/
theorem limit_eq (poll : Poll) : poll.limit = poll.timeout.toNat - 1 + 1 := by
  unfold limit
  omega

end Poll

/-! ## Runs of a poll -/

section Watch

variable {γ : Type} {view : Scan → Bytes → Option γ} {poll : Poll} {result : Except Error Unit}
  {exchanges : List (Exchange Request Request.Answer)}

/-- A message is no call, whether it is wanted or not. -/
theorem runs_logIf {wanted : Bool} {level : LogLevel} {text : String} {next : Host Unit}
    (hruns : Runs (if wanted = true then Host.log level text >>= fun _ => next else next)
      exchanges result) :
    ∃ messages rest, exchanges = messages ++ rest ∧
      (∀ exchange ∈ messages, exchange.1.isCall = false) ∧ Runs next rest result := by
  cases wanted with
  | false => exact ⟨[], exchanges, rfl, by simp, hruns⟩
  | true =>
    obtain ⟨answer, rest, rfl, hnext⟩ := hruns.of_ask_bind
    exact ⟨[⟨.log level text, answer⟩], rest, rfl, by simp [Request.isCall], hnext⟩

/-- A poll takes a sample. Then it has found what it awaits, or may take no more samples, or goes
on. -/
theorem runs_watch_cases {sample : Host UInt8} {left taken : Nat}
    (hruns : Runs (poll.watch sample left taken) exchanges result) :
    (∃ error, result = .error error ∧ Runs sample exchanges (.error error)) ∨
    ∃ value first messages, Runs sample first (.ok value) ∧
      (∀ exchange ∈ messages, exchange.1.isCall = false) ∧
      ((poll.Awaits value ∧ exchanges = first ++ messages ∧ result = .ok ()) ∨
        (¬ poll.Awaits value ∧ left = 0 ∧ exchanges = first ++ messages ∧
          result = .error .spiTimeout) ∨
        (¬ poll.Awaits value ∧ ∃ next rest, left = next + 1 ∧
          exchanges = first ++ messages ++ rest ∧
          Runs (poll.watch sample next (taken + 1)) rest result)) := by
  unfold Poll.watch at hruns
  rcases Host.runs_bind_iff.mp hruns with
    ⟨value, first, _, rfl, hsample, hlogged⟩ | hfailed
  case inr => exact .inl hfailed
  obtain ⟨messages, rest, rfl, hsilent, hrest⟩ := runs_logIf hlogged
  -- A sample has been taken and logged. What it shows decides.
  by_cases hawaits : poll.Awaits value
  · rw [if_pos (beq_iff_eq.mpr hawaits)] at hrest
    obtain ⟨rfl, rfl⟩ := Host.runs_pure_iff.mp hrest
    exact .inr ⟨value, first, messages, hsample, hsilent, .inl ⟨hawaits, by simp, rfl⟩⟩
  rw [if_neg fun hequal => hawaits (beq_iff_eq.mp hequal)] at hrest
  cases left with
  | zero =>
    obtain ⟨answer, _, rfl, hthrow⟩ := hrest.of_ask_bind
    obtain ⟨rfl, rfl⟩ := Host.runs_throw_iff.mp hthrow
    refine .inr ⟨value, first, messages ++ [⟨_, answer⟩], hsample, ?_,
      .inr (.inl ⟨hawaits, rfl, by simp, rfl⟩)⟩
    exact List.forall_mem_append.mpr ⟨hsilent, List.forall_mem_singleton.mpr rfl⟩
  | succ next =>
    exact .inr ⟨value, first, messages, hsample, hsilent,
      .inr (.inr ⟨hawaits, next, rest, rfl, by simp, hrest⟩)⟩

/-- Each sample of a poll makes the same calls. The poll comes to an end with what it has sampled,
or the cable fails in one of the samples. -/
theorem runs_watch {sample : Host UInt8} {calls : List CableCall} {encode : UInt8 → List γ}
    (hsample : Sees view sample calls fun seen value => seen = encode value) {left taken : Nat}
    (hruns : Runs (poll.watch sample left taken) exchanges result) :
    (∃ values, poll.Decides (left + 1) values result ∧
      (∀ exchange ∈ exchanges, Exchange.failure? exchange = none) ∧
      callsOf exchanges = (List.replicate values.length calls).flatten ∧
      seen view exchanges = values.flatMap encode) ∨
    (callsOf exchanges <+: (List.replicate (left + 1) calls).flatten ∧
      ∃ error, result = .error error ∧
        ∃ exchange ∈ exchanges, Exchange.failure? exchange = some error) := by
  -- A sample that succeeds shows one value.
  have hone : ∀ {value first messages}, Runs sample first (.ok value) →
      (∀ exchange ∈ messages, exchange.1.isCall = false) →
      (∀ exchange ∈ first ++ messages, Exchange.failure? exchange = none) ∧
        callsOf (first ++ messages) = calls ∧ seen view (first ++ messages) = encode value := by
    intro value first messages hruns hsilent
    obtain ⟨hcalls, hworks, hseen⟩ := hsample.of_ok hruns
    refine ⟨List.forall_mem_append.mpr ⟨hworks, fun exchange hmem =>
      Exchange.failure?_of_not_isCall (hsilent exchange hmem)⟩, ?_, ?_⟩
    · rw [Host.callsOf_append, hcalls, (Host.follow_of_silent hsilent).calls_eq, List.append_nil]
    · rw [Host.seen_append, hseen, Host.seen_of_silent hsilent, List.append_nil]
  -- On the samples that are left: after one that is not awaited, there is one less.
  induction left using Nat.strong_induction_on generalizing exchanges taken with
  | _ left ih =>
    rcases runs_watch_cases hruns with ⟨error, rfl, hfailed⟩ |
      ⟨value, first, messages, hfirst, hsilent, ⟨hawaits, rfl, rfl⟩ |
        ⟨hmissed, rfl, rfl, rfl⟩ | ⟨hmissed, next, rest, rfl, rfl, hrest⟩⟩
    · obtain ⟨hcalls, hcable⟩ := hsample.of_error hfailed
      refine .inr ⟨hcalls.trans ?_, error, rfl, hcable⟩
      rw [List.replicate_succ, List.flatten_cons]
      exact List.prefix_append ..
    · obtain ⟨hworks, hcalls, hseen⟩ := hone hfirst hsilent
      exact .inl ⟨[value], .found hawaits, hworks, by simp [hcalls], by simp [hseen]⟩
    · obtain ⟨hworks, hcalls, hseen⟩ := hone hfirst hsilent
      exact .inl ⟨[value], .missed hmissed, hworks, by simp [hcalls], by simp [hseen]⟩
    · obtain ⟨hworks, hcalls, hseen⟩ := hone hfirst hsilent
      rw [Host.callsOf_append, hcalls, Host.seen_append, hseen]
      rcases ih next (Nat.lt_succ_self _) hrest with
        ⟨values, hdecides, hworks', hcalls', hseen'⟩ |
          ⟨hcalls', error, rfl, exchange, hmem, hfailed⟩
      · exact .inl ⟨value :: values, .next hmissed hdecides,
          List.forall_mem_append.mpr ⟨hworks, hworks'⟩, by simp [hcalls', List.replicate_succ],
          by simp [hseen']⟩
      · refine .inr ⟨?_, error, rfl, exchange, List.mem_append_right _ hmem, hfailed⟩
        rw [List.replicate_succ, List.flatten_cons]
        exact (List.prefix_append_right_inj _).mpr hcalls'

/-- Fewer samples are taken by fewer calls. -/
theorem isPrefix_calls_of_le {samples most : Nat} (h : samples ≤ most) (calls : List CableCall) :
    (List.replicate samples calls).flatten <+: (List.replicate most calls).flatten := by
  obtain ⟨more, rfl⟩ := Nat.exists_eq_add_of_le h
  rw [← List.replicate_append_replicate, List.flatten_append]
  exact List.prefix_append ..

end Watch

/-! ## Toggling pins -/

namespace BitBang

variable {pins : SpiPins} {poll : Poll} {exchanges : List (Exchange Request Request.Answer)}
  {result : Except Error Unit}

/-- What a poll does between selecting the chip and releasing it. -/
def polling (pins : SpiPins) (poll : Poll) : Host Unit := do
  let _ ← clockByte pins poll.command
  poll.watch (clockByte pins 0) (poll.timeout.toNat - 1) 0

/-- The bytes of a poll: the command, and zeros while the samples are taken. -/
def pollBytes (poll : Poll) (samples : Nat) : Bytes :=
  poll.command :: List.replicate samples 0

theorem byteCalls_cons (byte : UInt8) (bytes : Bytes) :
    byteCalls pins (byte :: bytes) = byteCalls pins [byte] ++ byteCalls pins bytes := by
  simp [byteCalls]

/-- The bytes of a poll are its command, and a zero for each sample. -/
theorem byteCalls_pollBytes (poll : Poll) (samples : Nat) :
    byteCalls pins (pollBytes poll samples) =
      byteCalls pins [poll.command] ++ (List.replicate samples (byteCalls pins [0])).flatten := by
  have hzeros : byteCalls pins (List.replicate samples 0) =
      (List.replicate samples (byteCalls pins [0])).flatten := by
    induction samples with
    | zero => rfl
    | succ samples ih =>
      rw [List.replicate_succ, byteCalls_cons, ih, List.replicate_succ, List.flatten_cons]
  rw [pollBytes, byteCalls_cons, hzeros]

/-- The command is sent once, and a byte is clocked for each sample. -/
theorem runs_polling {view : Scan → Bytes → Option Bool} (h : pins.Samples view)
    (hruns : Runs (polling pins poll) exchanges result) :
    (∃ first values, poll.Decides poll.limit values result ∧
      (∀ exchange ∈ exchanges, Exchange.failure? exchange = none) ∧
      callsOf exchanges = byteCalls pins (pollBytes poll values.length) ∧
      seen view exchanges = (first :: values).flatMap Bytes.bitsOf) ∨
    (callsOf exchanges <+: byteCalls pins (pollBytes poll poll.limit) ∧
      ∃ error, result = .error error ∧
        ∃ exchange ∈ exchanges, Exchange.failure? exchange = some error) := by
  simp only [byteCalls_pollBytes]
  rcases Host.runs_bind_iff.mp hruns with
    ⟨first, before, after, rfl, hcommand, hwatch⟩ | ⟨error, rfl, hfailed⟩
  · -- The command has gone out, and the byte that came back with it is no sample.
    obtain ⟨hcalls, hworks, hseen⟩ := (sees_clockByte h poll.command).of_ok hcommand
    rw [Host.callsOf_append, Host.seen_append, hcalls, hseen]
    rcases runs_watch (sees_clockByte h 0) hwatch with
      ⟨values, hdecides, hworks', hcalls', hseen'⟩ |
        ⟨hcalls', error, rfl, exchange, hmem, hfailed⟩
    · rw [← Poll.limit_eq] at hdecides
      exact .inl ⟨first, values, hdecides, List.forall_mem_append.mpr ⟨hworks, hworks'⟩,
        by rw [hcalls'], by rw [hseen', List.flatMap_cons]⟩
    · rw [← Poll.limit_eq] at hcalls'
      exact .inr ⟨(List.prefix_append_right_inj _).mpr hcalls', error, rfl, exchange,
        List.mem_append_right _ hmem, hfailed⟩
  · obtain ⟨hcalls, hcable⟩ := (sees_clockByte h poll.command).of_error hfailed
    exact .inr ⟨hcalls.trans (List.prefix_append ..), error, rfl, hcable⟩

/-- However a release ends, its vector has been written or tried. -/
theorem runs_release (hruns : Runs (release pins) exchanges result) :
    ∃ reply rest, exchanges =
      ⟨.cable (.shiftDr ⟨some [pins.released], none, 8, .runTestIdle⟩), reply⟩ :: rest := by
  obtain _ | ⟨reply, _⟩ := hruns
  exact ⟨reply, _, rfl⟩

/-- A poll that has selected the chip polls and releases it, and ends with the failure of the
polling, or else with that of the release. -/
theorem runs_await_cases (hruns : Runs ((bitBang pins).await poll) exchanges result) :
    (∃ error, result = .error error ∧ Runs (select pins) exchanges (.error error)) ∨
    ∃ opening middle closing polled released, exchanges = opening ++ (middle ++ closing) ∧
      Runs (select pins) opening (.ok ()) ∧ Runs (polling pins poll) middle polled ∧
      Runs (release pins) closing released ∧ result = (polled >>= fun _ => released) := by
  rcases Host.runs_bind_iff.mp hruns with ⟨_, opening, _, rfl, hselect, hrest⟩ | hfailed
  · obtain ⟨polled, middle, _, rfl, hpolling, hrest⟩ := runs_attempt hrest
    obtain ⟨released, closing, _, rfl, hrelease, hdone⟩ := runs_attempt hrest
    obtain ⟨rfl, rfl⟩ := Dialogue.runs_done_iff.mp hdone
    exact .inr ⟨opening, middle, closing, polled, released, by simp, hselect, hpolling, hrelease,
      rfl⟩
  · exact .inl hfailed

/-- What a poll comes to when pins are toggled. -/
structure Polls (pins : SpiPins) (poll : Poll) (exchanges : List (Exchange Request Request.Answer))
    (result : Except Error Unit) : Prop where
  /-- Over a cable that works, the bits that are read are those of a byte that comes back with the
  command, and those of the samples. There are as many samples as there should be, and the vectors
  are those of one transaction: the command goes out once, the chip is selected until the last
  vector, and that one releases it with the clock low. -/
  exact : (∀ exchange ∈ exchanges, Exchange.failure? exchange = none) → ∃ first values,
    seen pins.whenRead exchanges = (first :: values).flatMap Bytes.bitsOf ∧
    values.length ≤ poll.limit ∧
    (∀ stream : Nat → UInt8, (∀ i value, values[i]? = some value → value = stream i) →
      poll.Exact poll.limit stream values.length result) ∧
    ∃ vectors, vectors = pins.transaction (pollBytes poll values.length) ∧
      Toggles (callsOf exchanges) vectors ∧
      (pins.Disjoint → (∀ vector ∈ vectors.dropLast, pins.Selects vector) ∧
        ∀ vector ∈ vectors.getLast?, pins.Rests vector)
  /-- Over any cable, the chip is not selected, or it is polled and then its release is tried. No
  more samples are tried than may be taken. What fails first is reported: the polling, be it the
  cable or the time that has run out, and else the release. -/
  closes :
    (∃ error, result = .error error ∧ Runs (select pins) exchanges (.error error)) ∨
    ∃ opening middle closing polled released, exchanges = opening ++ (middle ++ closing) ∧
      Runs (select pins) opening (.ok ()) ∧ Runs (polling pins poll) middle polled ∧
      Runs (release pins) closing released ∧
      (∃ reply rest, closing =
        ⟨.cable (.shiftDr ⟨some [pins.released], none, 8, .runTestIdle⟩), reply⟩ :: rest) ∧
      callsOf middle <+: byteCalls pins (pollBytes poll poll.limit) ∧
      (∀ error, polled = .error error →
        (error = .spiTimeout ∧ ∀ exchange ∈ middle, Exchange.failure? exchange = none) ∨
          ∃ exchange ∈ middle, Exchange.failure? exchange = some error) ∧
      result = (polled >>= fun _ => released)

/-- Every run of a poll on the pins comes to what it should. -/
theorem polls_await (hruns : Runs ((bitBang pins).await poll) exchanges result) :
    Polls pins poll exchanges result := by
  have hsamples := pins.samples_whenRead
  rcases runs_await_cases hruns with ⟨error, rfl, hselect⟩ |
    ⟨opening, middle, closing, polled, released, rfl, hselect, hpolling, hrelease, rfl⟩
  · -- A cable that works selects the chip.
    refine ⟨fun hworks => ?_, .inl ⟨error, rfl, hselect⟩⟩
    obtain ⟨-, _, ⟨⟩, -⟩ := (sees_select hsamples).works hselect hworks
  refine ⟨fun hworks => ?_, .inr ⟨opening, middle, closing, polled, released, rfl, hselect,
    hpolling, hrelease, runs_release hrelease, ?_, ?_, rfl⟩⟩
  · obtain ⟨-, hworks⟩ := List.forall_mem_append.mp hworks
    obtain ⟨hworksMiddle, hworksClosing⟩ := List.forall_mem_append.mp hworks
    obtain ⟨hopening, -, hnone⟩ := (sees_select hsamples).of_ok hselect
    obtain ⟨hclosing, _, rfl, hnone'⟩ := (sees_release hsamples).works hrelease hworksClosing
    rcases runs_polling hsamples hpolling with
      ⟨first, values, hdecides, -, hmiddle, hseen⟩ | ⟨-, error, -, exchange, hmem, hfailed⟩
    · -- The release succeeds, so the poll ends as the polling did.
      have hresult : (polled >>= fun _ => Except.ok ()) = polled := by cases polled <;> rfl
      rw [hresult]
      refine ⟨first, values, by simp [hnone, hseen, hnone'], hdecides.length_le,
        fun stream => hdecides.exact, _, rfl, ?_, fun hdisjoint =>
          ⟨SpiPins.selects_transaction hdisjoint _, SpiPins.rests_transaction hdisjoint _⟩⟩
      have hcalls := toggles_transaction pins (pollBytes poll values.length)
      rw [transactionCalls] at hcalls
      simpa [hopening, hmiddle, hclosing] using hcalls
    · cases (hworksMiddle exchange hmem).symm.trans hfailed
  · -- Over any cable, the calls are a prefix of those of the longest poll.
    rcases runs_polling hsamples hpolling with ⟨_, values, hdecides, -, hcalls, -⟩ | ⟨hcalls, -⟩
    · rw [hcalls]
      rw [byteCalls_pollBytes, byteCalls_pollBytes]
      exact (List.prefix_append_right_inj _).mpr (isPrefix_calls_of_le hdecides.length_le _)
    · exact hcalls
  · -- A poll that fails by itself has timed out.
    rintro error rfl
    rcases runs_polling hsamples hpolling with
      ⟨_, values, hdecides, hworks, -⟩ | ⟨-, _, ⟨⟩, hcable⟩
    · exact .inl ⟨hdecides.eq_timeout, hworks⟩
    · exact .inr hcable

end BitBang

/-! ## Scanning -/

namespace ShiftRegister

variable {poll : Poll} {exchanges : List (Exchange Request Request.Answer)}
  {result : Except Error Unit}

/-- What comes back in a scan of three bytes: the second one, without the delay. -/
def answered (scan : Scan) (received : Bytes) : Option UInt8 :=
  if scan.bits = 24 then some ((decode received).getD 1 0) else none

/-- The calls that take a sample. -/
def sampleCalls (command : UInt8) : List CableCall :=
  Host.sendCalls .spiPassthrough ++ [.setState .exit2Dr] ++
    [.shiftDr ⟨some [Bytes.reverseBits command, 0, 0], some 3, 24, .runTestIdle⟩]

/-- Connecting the data register captures nothing that counts as a sample. -/
theorem sees_connect :
    Sees answered connect (Host.sendCalls .spiPassthrough ++ [.setState .exit2Dr])
      fun seen _ => seen = [] := by
  refine (Host.sees_send _).bind fun seen _ hnone => ?_
  rw [hnone]
  exact Host.sees_setState _

/-- A sample is what its scan has captured. -/
theorem sees_sample (command : UInt8) :
    Sees answered (sample command) (sampleCalls command) fun seen value => seen = [value] := by
  refine sees_connect.bind fun seen _ hnone => ?_
  refine (Host.sees_shiftDr _).bind_pure fun seen' received hsome => ?_
  rw [hnone, hsome]
  rfl

/-- What a poll comes to over scans. -/
structure Polls (poll : Poll) (exchanges : List (Exchange Request Request.Answer))
    (result : Except Error Unit) : Prop where
  /-- Over a cable that works, there are as many samples as there should be. -/
  exact : (∀ exchange ∈ exchanges, Exchange.failure? exchange = none) →
    ∃ values, seen answered exchanges = values ∧ values.length ≤ poll.limit ∧
      (∀ stream : Nat → UInt8, (∀ i value, values[i]? = some value → value = stream i) →
        poll.Exact poll.limit stream values.length result) ∧
      callsOf exchanges = (List.replicate values.length (sampleCalls poll.command)).flatten
  /-- Over any cable, no more samples are tried than may be taken. -/
  bounded : callsOf exchanges <+: (List.replicate poll.limit (sampleCalls poll.command)).flatten

/-- Every run of a poll over scans comes to what it should. -/
theorem polls_await (hruns : Runs (shiftRegister.await poll) exchanges result) :
    Polls poll exchanges result := by
  rcases runs_watch (sees_sample poll.command) hruns with
    ⟨values, hdecides, -, hcalls, hseen⟩ | ⟨hcalls, error, -, exchange, hmem, hfailed⟩
  · rw [← Poll.limit_eq] at hdecides
    refine ⟨fun _ => ⟨values, by simpa using hseen, hdecides.length_le,
      fun stream => hdecides.exact, hcalls⟩, ?_⟩
    rw [hcalls]
    exact isPrefix_calls_of_le hdecides.length_le _
  · rw [← Poll.limit_eq] at hcalls
    refine ⟨fun hworks => ?_, hcalls⟩
    cases (hworks exchange hmem).symm.trans hfailed

end ShiftRegister

/-- A poll takes exactly the samples that it should, with either encoding and whatever comes back:
up to the first one that it awaits, or as many as its timeout says, but one at least. Their number
does not exceed 32 bits. When pins are toggled, the chip is selected once, and its release is tried
whatever the polling has come to. -/
theorem await_polls (poll : Poll) :
    poll.limit < 2 ^ 32 ∧
    (∀ pins exchanges result, Runs ((bitBang pins).await poll) exchanges result →
      BitBang.Polls pins poll exchanges result) ∧
    ∀ exchanges result, Runs (shiftRegister.await poll) exchanges result →
      ShiftRegister.Polls poll exchanges result :=
  ⟨poll.limit_lt, fun _ _ _ => BitBang.polls_await, fun _ _ => ShiftRegister.polls_await⟩

/-- The latch of a simulated flash is not set, so a poll that awaits it takes two samples and gives
up, with either encoding. -/
theorem await_polls_latch :
    let poll : Poll := ⟨0x05, 0x02, 0x02, 2, true⟩
    let toggles := Host.run Simulator.cable none ((bitBang .standard).await poll)
      { Simulator.powerUp {} with ir := Instruction.spiBoundaryScan.opcode }
    let scans := Host.run Simulator.cable none (shiftRegister.await poll)
      (.powerUp { idcode := 0x0000081B })
    toggles.result = .error .spiTimeout ∧ scans.result = .error .spiTimeout ∧
      poll.limit < 2 ^ 32 ∧ BitBang.Polls .standard poll toggles.exchanges toggles.result ∧
      ShiftRegister.Polls poll scans.exchanges scans.result := by
  intro poll toggles scans
  obtain ⟨hlimit, htoggles, hscans⟩ := await_polls poll
  refine ⟨?_, ?_, hlimit, htoggles _ _ _ (Host.runs_run ..), hscans _ _ (Host.runs_run ..)⟩ <;>
    decide +kernel

end SpiEncoding

end FpgaProgrammer
