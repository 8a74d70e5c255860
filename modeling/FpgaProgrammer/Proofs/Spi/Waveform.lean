import FpgaProgrammer.Proofs.Calls.Seen
import FpgaProgrammer.Proofs.Calls.Simulated
import FpgaProgrammer.Proofs.Spi.ChipSelect

/-!
# The waveform of a transaction

When pins are toggled, a transaction is a sequence of vectors. The clock rises once for each bit
that goes out, while the bit is stable on the data pin, and the chip is selected until the last
vector: this is a transaction in SPI mode 0. Nothing of it depends on what the cable answers.

* `SpiPins.Waveform`: what it takes for vectors to be such a transaction, and
  `SpiPins.waveform_transaction`: the vectors that the host writes are one.
* `SpiPins.atHigh`: what is sampled in a scan, a bit for each vector with the clock high. The bytes
  that come back are put together of these (`sees_clockBit`, `sees_clockByte`,
  `runs_clockBytes`).
* `BitBang.Toggles`: calls take the pins through vectors, and do nothing else to them.
* `BitBang.transfer_waveform`: a transfer is a transaction, whatever the cable answers, and what it
  receives are the sampled bits.
-/

namespace FpgaProgrammer

/-! ## Pins of a vector -/

namespace SpiPins

open Bytes (or_and)

variable {pins : SpiPins}

/-- The pins have bits of their own, and each pin has one. -/
structure Distinct (pins : SpiPins) : Prop extends pins.Disjoint where
  clock_ne : pins.clock ≠ 0
  dataIn_ne : pins.dataIn ≠ 0
  dataOut_ne : pins.dataOut ≠ 0
  enable_ne : pins.enable ≠ 0

/-- The data pin is high in the vector. -/
def carries (pins : SpiPins) (vector : UInt8) : Bool :=
  vector &&& pins.dataIn != 0

/-- The vector has the outputs enabled. -/
def Drives (pins : SpiPins) (vector : UInt8) : Prop :=
  vector &&& pins.enable = pins.enable

/-- The clock is low in the vectors that are meant to have it low. -/
theorem clock_low (h : pins.Disjoint) (bit : Bool) : pins.low bit &&& pins.clock = 0 := by
  obtain ⟨⟨-, hin, hout, henable⟩, -⟩ := by simpa using h.pairwise
  rw [UInt8.and_comm] at hin hout henable
  cases bit <;> simp [low, idle, or_and, hin, hout, henable]

/-- The clock is high in the vectors that are meant to have it high. -/
theorem clock_high (h : pins.Distinct) (bit : Bool) : pins.high bit &&& pins.clock ≠ 0 := by
  rw [high, or_and, clock_low h.toDisjoint, UInt8.zero_or, UInt8.and_self]
  exact h.clock_ne

/-- The bit is on the data pin before the clock rises. -/
theorem carries_low (h : pins.Distinct) (bit : Bool) : pins.carries (pins.low bit) = bit := by
  obtain ⟨-, -, ⟨hout, henable⟩, -⟩ := by simpa using h.pairwise
  rw [UInt8.and_comm] at hout henable
  cases bit <;> simp [carries, low, idle, or_and, hout, henable, h.dataIn_ne]

/-- The bit stays on the data pin while the clock is high. -/
theorem carries_high (h : pins.Distinct) (bit : Bool) : pins.carries (pins.high bit) = bit := by
  obtain ⟨⟨-, hin, -⟩, -⟩ := by simpa using h.pairwise
  rw [carries, high, or_and, hin, UInt8.or_zero]
  exact carries_low h bit

/-- Pins that go high turn no output off. -/
theorem Drives.or {vector : UInt8} (h : pins.Drives vector) (bits : UInt8) :
    pins.Drives (vector ||| bits) := by
  rw [Drives, or_and, h]
  apply UInt8.toBitVec_inj.mp
  ext i hi
  simp

/-- The outputs are enabled while the clock is low. -/
theorem drives_low (pins : SpiPins) (bit : Bool) : pins.Drives (pins.low bit) := by
  have henable : pins.Drives pins.enable := UInt8.and_self
  cases bit with
  | false => exact henable.or _
  | true => exact (henable.or _).or _

theorem drives_high (pins : SpiPins) (bit : Bool) : pins.Drives (pins.high bit) :=
  (drives_low pins bit).or _

/-- The outputs are enabled while the chip is released, too. -/
theorem drives_released (h : pins.Disjoint) : pins.Drives pins.released := by
  obtain ⟨⟨-, -, -, henable⟩, -⟩ := by simpa using h.pairwise
  -- The clock is none of the outputs that are enabled, so turning it off keeps them.
  refine Drives.or ?_ _
  have hclock : (~~~pins.clock) &&& pins.enable = pins.enable := by
    apply UInt8.toBitVec_inj.mp
    ext i hi
    have hbit := congrArg (·.toBitVec[i]) henable
    simp at hbit ⊢
    grind
  rw [Drives, UInt8.and_assoc, hclock]
  exact drives_low pins false

/-! ## Waveforms -/

/-- The pairs of vectors between which the clock rises. -/
def risingEdges (pins : SpiPins) (vectors : List UInt8) : List (UInt8 × UInt8) :=
  (vectors.zip vectors.tail).filter fun (before, after) =>
    before &&& pins.clock == 0 && after &&& pins.clock != 0

/-- The vectors are a transaction of so many bytes in SPI mode 0, and `data` are the bits that go
out. -/
structure Waveform (pins : SpiPins) (length : Nat) (data : Nat → Bool) (vectors : List UInt8) :
    Prop where
  /-- There are two vectors for each bit, one that selects the chip and one that releases it. -/
  length_eq : vectors.length = 16 * length + 2
  /-- The outputs are enabled throughout. -/
  enabled : ∀ vector ∈ vectors, pins.Drives vector
  /-- The clock is low at first. -/
  first : ∀ vector ∈ vectors.head?, vector &&& pins.clock = 0
  /-- It rises once for each bit. -/
  edges : (pins.risingEdges vectors).length = 8 * length
  /-- The bit is on the data pin before the clock rises, and still there when it has risen. -/
  stable : ∀ j edge, (pins.risingEdges vectors)[j]? = some edge →
    pins.carries edge.1 = data j ∧ pins.carries edge.2 = data j
  /-- The chip is selected until the last vector. -/
  selected : ∀ vector ∈ vectors.dropLast, pins.Selects vector
  /-- The last vector releases it, with the clock low. -/
  last : ∀ vector ∈ vectors.getLast?, pins.Rests vector

/-- The vectors that clock out bits: the clock is low and then high while a bit is on the pin. -/
def clocked (pins : SpiPins) (bits : List Bool) : List UInt8 :=
  bits.flatMap fun bit => [pins.low bit, pins.high bit]

/-- The clock rises once for each bit, and has the bit around it. -/
theorem risingEdges_clocked (h : pins.Distinct) (bits : List Bool) (before : UInt8) :
    pins.risingEdges (before :: (pins.clocked bits ++ [pins.released])) =
      bits.map fun bit => (pins.low bit, pins.high bit) := by
  -- On the bits: from the vector before one, which may be anything, the clock goes low.
  induction bits generalizing before with
  | nil => simp [risingEdges, clocked, (rests_released h.toDisjoint).clock_eq]
  | cons bit bits ih =>
    have hrest := ih (pins.high bit)
    unfold risingEdges at hrest ⊢
    simpa [clocked, clock_low h.toDisjoint, clock_high h] using hrest

/-- Each bit takes two vectors. -/
theorem length_clocked (pins : SpiPins) (bits : List Bool) :
    (pins.clocked bits).length = 2 * bits.length := by
  induction bits with
  | nil => rfl
  | cons bit bits ih =>
    have hcons : pins.clocked (bit :: bits) = pins.low bit :: pins.high bit :: pins.clocked bits :=
      rfl
    rw [hcons, List.length_cons, List.length_cons, ih, List.length_cons, Nat.mul_succ]

/-- No vector but those with the clock low or high is written for a bit. -/
theorem mem_clocked {bits : List Bool} {vector : UInt8} (h : vector ∈ pins.clocked bits) :
    ∃ bit, vector = pins.low bit ∨ vector = pins.high bit := by
  obtain ⟨bit, -, hmem⟩ := List.mem_flatMap.mp h
  exact ⟨bit, by simpa using hmem⟩

/-- The vectors of a transaction: one that selects the chip, those of the bits, and one that
releases it. -/
def transaction (pins : SpiPins) (bytes : Bytes) : List UInt8 :=
  pins.idle :: (pins.clocked (bytes.flatMap Bytes.bitsOf) ++ [pins.released])

/-- The vectors of a transaction are of three kinds. -/
theorem transaction_eq (pins : SpiPins) (bytes : Bytes) : ∃ inner,
    pins.transaction bytes = inner ++ [pins.released] ∧
      ∀ vector ∈ inner, ∃ bit, vector = pins.low bit ∨ vector = pins.high bit := by
  refine ⟨pins.idle :: pins.clocked (bytes.flatMap Bytes.bitsOf), rfl, fun vector hmem => ?_⟩
  rcases List.mem_cons.mp hmem with rfl | hmem
  · exact ⟨false, .inl rfl⟩
  · exact mem_clocked hmem

/-- The chip is selected until the last vector of a transaction. -/
theorem selects_transaction (h : pins.Disjoint) (bytes : Bytes) :
    ∀ vector ∈ (pins.transaction bytes).dropLast, pins.Selects vector := by
  intro vector hmem
  obtain ⟨inner, hsplit, hinner⟩ := transaction_eq pins bytes
  rw [hsplit, List.dropLast_concat] at hmem
  obtain ⟨bit, rfl | rfl⟩ := hinner vector hmem
  · exact selects_low h bit
  · exact selects_high h bit

/-- The last vector of a transaction releases the chip. -/
theorem rests_transaction (h : pins.Disjoint) (bytes : Bytes) :
    ∀ vector ∈ (pins.transaction bytes).getLast?, pins.Rests vector := by
  intro vector hlast
  obtain ⟨inner, hsplit, -⟩ := transaction_eq pins bytes
  rw [hsplit, List.getLast?_concat] at hlast
  obtain rfl := Option.some.inj hlast
  exact rests_released h

/-- The vectors of a transaction are a waveform of its bytes, which go out most significant bit
first. -/
theorem waveform_transaction (h : pins.Distinct) (bytes : Bytes) :
    pins.Waveform bytes.length (fun j => (bytes.getD (j / 8) 0).toNat.testBit (7 - j % 8))
      (pins.transaction bytes) := by
  let bits := bytes.flatMap Bytes.bitsOf
  have hbits : bits.length = 8 * bytes.length := Bytes.length_flatMap_bitsOf bytes
  have hedges : pins.risingEdges (pins.transaction bytes) =
      bits.map fun bit => (pins.low bit, pins.high bit) := risingEdges_clocked h bits pins.idle
  refine ⟨?length, ?enabled, ?first, ?edges, ?stable, selects_transaction h.toDisjoint bytes,
    rests_transaction h.toDisjoint bytes⟩
  case length =>
    rw [transaction, List.length_cons, List.length_append, length_clocked, hbits,
      List.length_singleton]
    omega
  case enabled =>
    intro vector hmem
    obtain ⟨inner, hsplit, hinner⟩ := transaction_eq pins bytes
    rw [hsplit, List.mem_append, List.mem_singleton] at hmem
    rcases hmem with hmem | rfl
    · obtain ⟨bit, rfl | rfl⟩ := hinner vector hmem
      · exact drives_low pins bit
      · exact drives_high pins bit
    · exact drives_released h.toDisjoint
  case first =>
    rintro vector ⟨⟩
    exact clock_low h.toDisjoint false
  case edges => rw [hedges, List.length_map, hbits]
  -- The edges are the bits in order, so the edge at a place has the bit of this place around it.
  case stable =>
    intro j edge hedge
    rw [hedges, List.getElem?_map, Option.map_eq_some_iff] at hedge
    obtain ⟨bit, hbit, rfl⟩ := hedge
    have hj : j < 8 * bytes.length := by
      rw [← hbits]
      exact (List.getElem?_eq_some_iff.mp hbit).1
    rw [Bytes.getElem?_flatMap_bitsOf hj, Option.some_inj] at hbit
    rw [hbit]
    exact ⟨carries_low h bit, carries_high h bit⟩

end SpiPins

/-! ## Bits that are sampled -/

namespace SpiPins

variable {pins : SpiPins} {view : Scan → Bytes → Option Bool}

/-- In the scans of a transaction, the bits are seen that are sampled while the clock is high. -/
structure Samples (pins : SpiPins) (view : Scan → Bytes → Option Bool) : Prop where
  low : ∀ bit received, view ⟨some [pins.low bit], none, 8, .runTestIdle⟩ received = none
  high : ∀ bit received, view ⟨some [pins.high bit], some 1, 8, .runTestIdle⟩ received =
    some (pins.sample (received.headD 0))
  released : ∀ received, view ⟨some [pins.released], none, 8, .runTestIdle⟩ received = none

/-- The bit on the data pin of the flash, if the vector of the scan has the clock high. -/
def atHigh (pins : SpiPins) (scan : Scan) (received : Bytes) : Option Bool := do
  let vector ← scan.tx?.bind List.head?
  if vector &&& pins.clock = 0 then none else some (pins.sample (received.headD 0))

/-- In the scans of a transaction, the clock is high exactly where a bit is sampled. -/
theorem samples_atHigh (h : pins.Distinct) : pins.Samples pins.atHigh where
  low bit _ := if_pos (clock_low h.toDisjoint bit)
  high bit _ := if_neg (clock_high h bit)
  released _ := if_pos (rests_released h.toDisjoint).clock_eq

end SpiPins

namespace SpiEncoding.BitBang

open Host (Runs Sees callsOf seen)

variable {pins : SpiPins} {view : Scan → Bytes → Option Bool}
  {exchanges : List (Exchange Request Request.Answer)}

/-- The calls that write a vector, and let the pins settle. -/
def vectorCalls (vector : UInt8) (rxLength? : Option Nat) : List CableCall :=
  [.shiftDr ⟨some [vector], rxLength?, 8, .runTestIdle⟩, .toggleClock 6]

/-- The calls that clock a bit out, and sample one. -/
def bitCalls (pins : SpiPins) (bit : Bool) : List CableCall :=
  vectorCalls (pins.low bit) none ++ vectorCalls (pins.high bit) (some 1) ++ [.flush]

/-- The calls that clock bytes out. -/
def byteCalls (pins : SpiPins) (bytes : Bytes) : List CableCall :=
  (bytes.flatMap Bytes.bitsOf).flatMap (bitCalls pins)

/-- The calls of a transaction. -/
def transactionCalls (pins : SpiPins) (bytes : Bytes) : List CableCall :=
  vectorCalls pins.idle none ++ [.flush] ++ byteCalls pins bytes ++
    (vectorCalls pins.released none ++ [.flush])

/-- The calls take the pins through these vectors: each is a scan of eight bits, followed by six
clocks. Besides, only the queue is flushed. -/
inductive Toggles : (calls : List CableCall) → (vectors : List UInt8) → Prop where
  /-- Nothing is called. -/
  | done : Toggles [] []
  /-- A vector is written, and the pins settle. -/
  | vector (vector : UInt8) (rxLength? : Option Nat) (endState : TapState)
      {calls : List CableCall} {vectors : List UInt8} (rest : Toggles calls vectors) :
      Toggles (.shiftDr ⟨some [vector], rxLength?, 8, endState⟩ :: .toggleClock 6 :: calls)
        (vector :: vectors)
  /-- The queue is flushed. -/
  | flush {calls : List CableCall} {vectors : List UInt8} (rest : Toggles calls vectors) :
      Toggles (.flush :: calls) vectors

/-- The calls of a transaction take the pins through its vectors. -/
theorem toggles_transaction (pins : SpiPins) (bytes : Bytes) :
    Toggles (transactionCalls pins bytes) (pins.transaction bytes) := by
  have hclosing : Toggles (vectorCalls pins.released none ++ [.flush]) [pins.released] :=
    .vector _ _ _ (.flush .done)
  -- On the bits: each takes two vectors, and what follows them is the rest.
  have hbits : ∀ bits : List Bool, Toggles
      (bits.flatMap (bitCalls pins) ++ (vectorCalls pins.released none ++ [.flush]))
      (pins.clocked bits ++ [pins.released]) := by
    intro bits
    induction bits with
    | nil => exact hclosing
    | cons bit rest ih => exact .vector _ _ _ (.vector _ _ _ (.flush ih))
  exact .vector _ _ _ (.flush (hbits _))

/-! ## Bits -/

/-- Nothing is sampled while the clock is low. -/
theorem sees_write {vector : UInt8}
    (hnone : ∀ received, view ⟨some [vector], none, 8, .runTestIdle⟩ received = none) :
    Sees view (write vector) (vectorCalls vector none) fun bits _ => bits = [] := by
  refine (Host.sees_shiftDr _).bind fun bits received hbits => ?_
  rw [hbits, hnone]
  exact Host.sees_toggleClock _

/-- A bit is sampled while the clock is high. -/
theorem sees_exchange {vector : UInt8}
    (hsome : ∀ received, view ⟨some [vector], some 1, 8, .runTestIdle⟩ received =
      some (pins.sample (received.headD 0))) :
    Sees view (exchange vector) (vectorCalls vector (some 1)) fun bits captured =>
      bits = [pins.sample captured] := by
  refine (Host.sees_shiftDr _).bind fun bits received hbits => ?_
  rw [hbits, hsome]
  refine (Host.sees_toggleClock _).bind_pure fun bits _ hnone => ?_
  rw [hnone]
  rfl

/-- One bit is sampled while one is clocked out, and it is the one handed on. -/
theorem sees_clockBit (h : pins.Samples view) (bit : Bool) :
    Sees view (clockBit pins bit) (bitCalls pins bit) fun bits sampled => bits = [sampled] := by
  unfold bitCalls
  rw [List.append_assoc]
  refine (sees_write (h.low bit)).bind fun bits _ hnone => ?_
  refine (sees_exchange (h.high bit)).bind fun bits' captured hsampled => ?_
  refine Host.sees_flush.bind_pure fun bits'' _ hnone' => ?_
  rw [hnone, hsampled, hnone']
  rfl

/-- As many bits are sampled as are clocked out. -/
theorem sees_clockBits (h : pins.Samples view) (bits : List Bool) :
    Sees view (clockBits pins bits) (bits.flatMap (bitCalls pins)) fun seen sampled =>
      seen = sampled ∧ sampled.length = bits.length := by
  induction bits with
  | nil => exact Host.sees_pure ⟨rfl, rfl⟩
  | cons bit rest ih =>
    refine (sees_clockBit h bit).bind fun seen sampled hsampled => ?_
    refine ih.bind_pure fun seen' others hothers => ?_
    obtain ⟨rfl, hlength⟩ := hothers
    exact ⟨by rw [hsampled, List.singleton_append], congrArg (· + 1) hlength⟩

/-! ## Bytes -/

/-- The bits that are sampled while a byte is clocked out are those of the byte that comes back. -/
theorem sees_clockByte (h : pins.Samples view) (byte : UInt8) :
    Sees view (clockByte pins byte) (byteCalls pins [byte]) fun seen sampled =>
      seen = Bytes.bitsOf sampled := by
  have hcalls : byteCalls pins [byte] = (Bytes.bitsOf byte).flatMap (bitCalls pins) := by
    rw [byteCalls, List.flatMap_singleton]
  rw [hcalls]
  refine (sees_clockBits h _).bind_pure fun seen sampled hsampled => ?_
  obtain ⟨rfl, hlength⟩ := hsampled
  rw [Bytes.bitsOf_ofBits (hlength.trans (Bytes.length_bitsOf byte))]

/-- Over a cable that works, as many bytes are received as are clocked out. -/
theorem runs_clockBytes (h : pins.Samples view) {bytes received : Bytes} {receipt : Receipt}
    (hruns : Dialogue.Runs (clockBytes pins bytes received) exchanges receipt)
    (hworks : ∀ exchange ∈ exchanges, Exchange.failure? exchange = none) :
    callsOf exchanges = byteCalls pins bytes ∧
      ∃ sampled, receipt = ⟨received.reverse ++ sampled, .ok ()⟩ ∧
        sampled.length = bytes.length ∧ seen view exchanges = sampled.flatMap Bytes.bitsOf := by
  -- On the bytes: what has been received so far is kept in reverse.
  induction bytes generalizing exchanges received with
  | nil =>
    obtain ⟨rfl, rfl⟩ := Dialogue.runs_done_iff.mp hruns
    exact ⟨rfl, [], by rw [List.append_nil], rfl, rfl⟩
  | cons byte bytes ih =>
    obtain ⟨before, _, after, rfl, hbyte, hrest⟩ := Dialogue.runs_bind_iff.mp hruns
    obtain ⟨hworksBefore, hworksAfter⟩ := List.forall_mem_append.mp hworks
    obtain ⟨hcalls, value, rfl, hseen⟩ := (sees_clockByte h byte).works hbyte hworksBefore
    obtain ⟨hcalls', sampled, rfl, hlength, hseen'⟩ := ih hrest hworksAfter
    refine ⟨?_, value :: sampled, by simp, by simp [hlength], by simp [hseen, hseen']⟩
    rw [Host.callsOf_append, hcalls, hcalls']
    simp [byteCalls]

/-! ## Transactions -/

/-- No bit is sampled while the chip is being selected. -/
theorem sees_select (h : pins.Samples view) :
    Sees view (select pins) (vectorCalls pins.idle none ++ [.flush]) fun bits _ => bits = [] := by
  refine (sees_write (h.low false)).bind fun bits _ hnone => ?_
  rw [hnone]
  exact Host.sees_flush

theorem sees_release (h : pins.Samples view) :
    Sees view (release pins) (vectorCalls pins.released none ++ [.flush])
      fun bits _ => bits = [] := by
  refine (sees_write h.released).bind fun bits _ hnone => ?_
  rw [hnone]
  exact Host.sees_flush

/-- Over a cable that works, a transaction makes the same calls whatever comes back. -/
theorem runs_transact_works (h : pins.Samples view) {bytes : Bytes} {receipt : Receipt}
    (hruns : Dialogue.Runs (transact pins bytes) exchanges receipt)
    (hworks : ∀ exchange ∈ exchanges, Exchange.failure? exchange = none) :
    callsOf exchanges = transactionCalls pins bytes ∧
      ∃ sampled, receipt = ⟨sampled, .ok ()⟩ ∧ sampled.length = bytes.length ∧
        seen view exchanges = sampled.flatMap Bytes.bitsOf := by
  obtain ⟨opening, _, _, rfl, hselect, hrest⟩ := Dialogue.runs_bind_iff.mp hruns
  obtain ⟨hworksOpening, hworks⟩ := List.forall_mem_append.mp hworks
  obtain ⟨hopening, _, rfl, hnone⟩ := (sees_select h).works hselect hworksOpening
  obtain ⟨middle, _, _, rfl, hbytes, hrest⟩ := Dialogue.runs_bind_iff.mp hrest
  obtain ⟨hworksMiddle, hworks⟩ := List.forall_mem_append.mp hworks
  obtain ⟨hmiddle, sampled, rfl, hlength, hseen⟩ := runs_clockBytes h hbytes hworksMiddle
  obtain ⟨closing, _, _, rfl, hrelease, hdone⟩ := Dialogue.runs_bind_iff.mp hrest
  obtain ⟨hworksClosing, -⟩ := List.forall_mem_append.mp hworks
  obtain ⟨hclosing, _, rfl, hnone'⟩ := (sees_release h).works hrelease hworksClosing
  obtain ⟨rfl, rfl⟩ := Dialogue.runs_done_iff.mp hdone
  -- Neither the selection nor the release samples anything.
  refine ⟨?_, sampled, rfl, hlength, ?_⟩
  · simp [hopening, hmiddle, hclosing, transactionCalls]
  · simp [hnone, hseen, hnone']

/-! ## Transfers -/

/-- The bytes that go out are as many as are sent, or as are wanted back. -/
theorem length_outgoing (tx? : Option Bytes) (rxLength? : Option Nat) :
    (outgoing tx? rxLength?).length = ((tx?.map List.length).or rxLength?).getD 0 := by
  cases tx? with
  | none => simp [outgoing]
  | some tx => rfl

/-- Where nothing is sent, zeros go out. -/
theorem getD_outgoing (tx? : Option Bytes) (rxLength? : Option Nat) (i : Nat) :
    (outgoing tx? rxLength?).getD i 0 = (tx?.getD []).getD i 0 := by
  cases tx? with
  | none => simp [outgoing]
  | some tx => rfl

/-- Over a cable that works, whatever it returns, a transfer is a transaction in SPI mode 0. Its
length is that of the bytes to send, or else of the bytes wanted back, and zeros go out where there
is nothing to send. The calls are the same for all answers of the cable, and what is received are
the bits sampled while the clock is high, the most significant bit of each byte first. -/
theorem transfer_waveform (h : pins.Distinct) (tx? : Option Bytes) (rxLength? : Option Nat)
    {receipt : Receipt}
    (hruns : Dialogue.Runs ((bitBang pins).transfer tx? rxLength?) exchanges receipt)
    (hworks : ∀ exchange ∈ exchanges, Exchange.failure? exchange = none) :
    let length := ((tx?.map List.length).or rxLength?).getD 0
    receipt.ending = .ok () ∧
      callsOf exchanges = transactionCalls pins (outgoing tx? rxLength?) ∧
      (∃ vectors, Toggles (callsOf exchanges) vectors ∧ pins.Waveform length
        (fun j => ((tx?.getD []).getD (j / 8) 0).toNat.testBit (7 - j % 8)) vectors) ∧
      receipt.received.length = min length (rxLength?.getD 0) ∧
      (seen pins.atHigh exchanges).length = 8 * length ∧
      ∀ i, ∀ hi : i < receipt.received.length, ∀ b < 8,
        (seen pins.atHigh exchanges)[8 * i + b]? =
          some (receipt.received[i].toNat.testBit (7 - b)) := by
  intro length
  let bytes := outgoing tx? rxLength?
  have hlength : bytes.length = length := length_outgoing tx? rxLength?
  obtain ⟨_, _, _, rfl, htransact, hdone⟩ := Dialogue.runs_bind_iff.mp hruns
  obtain ⟨rfl, rfl⟩ := Dialogue.runs_done_iff.mp hdone
  obtain ⟨hworks, -⟩ := List.forall_mem_append.mp hworks
  obtain ⟨hcalls, sampled, rfl, hsampled, hseen⟩ :=
    runs_transact_works (SpiPins.samples_atHigh h) htransact hworks
  rw [List.append_nil, hseen]
  have hdata : ∀ j, bytes.getD (j / 8) 0 = (tx?.getD []).getD (j / 8) 0 := fun j =>
    getD_outgoing tx? rxLength? (j / 8)
  refine ⟨rfl, hcalls, ⟨pins.transaction bytes, ?_, ?_⟩, ?_, ?_, ?_⟩
  · rw [hcalls]
    exact toggles_transaction pins bytes
  · have hwave := SpiPins.waveform_transaction h bytes
    simpa only [hdata, hlength] using hwave
  · rw [List.length_take, hsampled, hlength, Nat.min_comm]
  · rw [Bytes.length_flatMap_bitsOf, hsampled, hlength]
  · -- Bit `b` of byte `i` is the one seen at place `8 * i + b`.
    intro i hi b hb
    dsimp only at hi ⊢
    have hi' : i < sampled.length := Nat.lt_of_lt_of_le hi (List.length_take_le' ..)
    have hdiv : (8 * i + b) / 8 = i := by omega
    have hmod : (8 * i + b) % 8 = b := by omega
    rw [Bytes.getElem?_flatMap_bitsOf (by omega), hdiv, hmod, List.getElem_take,
      List.getD_eq_getElem _ _ hi']

/-- Three bytes go out to the simulated device, and two of those that come back are kept. -/
theorem transfer_waveform_identification :
    let pins := SpiPins.gw1nsr4c
    let sim : Simulator :=
      { Simulator.powerUp { idcode := 0x0100981B } with ir := Instruction.spiBoundaryScan.opcode }
    let sends := Host.run Simulator.cable none
      (ExceptT.lift ((bitBang pins).transfer (some [0x9F, 0xA5, 0]) (some 2))) sim
    pins.Distinct ∧ (∀ exchange ∈ sends.exchanges, Exchange.failure? exchange = none) ∧
      ∃ receipt, sends.result = .ok receipt ∧ receipt.ending = .ok () ∧
        receipt.received.length = 2 ∧ (seen pins.atHigh sends.exchanges).length = 24 ∧
        ∃ vectors, Toggles (callsOf sends.exchanges) vectors ∧
          pins.Waveform 3 (fun j => (([0x9F, 0xA5, 0] : Bytes).getD (j / 8) 0).toNat.testBit
            (7 - j % 8)) vectors := by
  intro pins sim sends
  have hdistinct : pins.Distinct :=
    ⟨⟨by decide, by decide⟩, by decide, by decide, by decide, by decide⟩
  have hworks : ∀ exchange ∈ sends.exchanges, Exchange.failure? exchange = none :=
    Simulator.works_run none _ sim
  obtain ⟨_, receipt, _, hexchanges, hruns, hdone⟩ :=
    Dialogue.runs_bind_iff.mp (Host.runs_run Simulator.cable none
      (ExceptT.lift ((bitBang pins).transfer (some [0x9F, 0xA5, 0]) (some 2))) sim)
  obtain ⟨rfl, hresult⟩ := Dialogue.runs_done_iff.mp hdone
  rw [List.append_nil] at hexchanges
  obtain ⟨hending, -, hwaveform, hlength, hseen, -⟩ := transfer_waveform hdistinct
    (some [0x9F, 0xA5, 0]) (some 2) hruns (hexchanges ▸ hworks)
  refine ⟨hdistinct, hworks, receipt, hresult.symm, hending, hlength, ?_, ?_⟩
  · rw [show sends.exchanges = _ from hexchanges]
    exact hseen
  · rw [show sends.exchanges = _ from hexchanges]
    exact hwaveform

end SpiEncoding.BitBang

end FpgaProgrammer
