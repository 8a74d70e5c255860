import Mathlib.Control.Monad.Basic
import FpgaProgrammer.Proofs.Bytes.Bits
import FpgaProgrammer.Proofs.Failures.FailStop
import FpgaProgrammer.Proofs.Spi.Closed
import FpgaProgrammer.Simulator.Step

/-!
# The chip after a transaction

When pins are toggled, a transaction selects the chip by its first vector and releases it by its
last one. In between no vector releases it, so a transaction that is broken off leaves the chip
selected, and the next one goes on where it stopped.

* `SpiPins.Disjoint`: the pins of a layout have bits of their own. Then every vector of a byte
  selects the chip, and the last vector releases it with the clock low (`selects_low`,
  `selects_high`, `rests_released`).
* `lastVector?`: the last vector that has reached the cable.
* `BitBang.left_released`: what this is after a transfer and after a poll, whatever the cable
  answers and wherever it fails. A transfer that succeeds releases the chip, and so does every poll
  that has selected it, unless the release itself fails. A transfer that fails does not.
* `BitBang.left_selected`: one failure of the cable is enough to leave the chip selected.
-/

namespace FpgaProgrammer

/-! ## Layouts -/

namespace SpiPins

open Bytes (or_and)

variable {pins : SpiPins}

/-- The pins have bits of their own, and chip select has one. -/
structure Disjoint (pins : SpiPins) : Prop where
  pairwise : [pins.clock, pins.select, pins.dataIn, pins.dataOut, pins.enable].Pairwise
    fun bits bits' => bits &&& bits' = 0
  select_ne : pins.select ≠ 0

/-- The vector has the chip selected. -/
def Selects (pins : SpiPins) (vector : UInt8) : Prop :=
  vector &&& pins.select = 0

/-- The vector has the chip released and the clock low. -/
structure Rests (pins : SpiPins) (vector : UInt8) : Prop where
  select_ne : vector &&& pins.select ≠ 0
  clock_eq : vector &&& pins.clock = 0

/-- With the clock low, the chip is selected whatever bit is on the data pin. -/
theorem selects_low (h : pins.Disjoint) (bit : Bool) : pins.Selects (pins.low bit) := by
  obtain ⟨-, ⟨hselectIn, hselectOut, hselectEnable⟩, -⟩ := by simpa using h.pairwise
  have hidle : pins.Selects pins.idle := by
    rw [Selects, idle, or_and, UInt8.and_comm pins.enable, UInt8.and_comm pins.dataOut,
      hselectEnable, hselectOut, UInt8.or_self]
  cases bit with
  | false => exact hidle
  | true =>
    show (pins.idle ||| pins.dataIn) &&& pins.select = 0
    rw [or_and, hidle, UInt8.and_comm, hselectIn, UInt8.or_self]

/-- The chip stays selected while the clock is high. -/
theorem selects_high (h : pins.Disjoint) (bit : Bool) : pins.Selects (pins.high bit) := by
  obtain ⟨⟨hclock, -⟩, -⟩ := by simpa using h.pairwise
  rw [Selects, high, or_and, selects_low h, hclock, UInt8.or_self]

/-- The vector that releases the chip has the clock low. -/
theorem rests_released (h : pins.Disjoint) : pins.Rests pins.released where
  select_ne := by
    rw [released, or_and, UInt8.and_self]
    exact fun hzero => h.select_ne (UInt8.or_eq_zero_iff.mp hzero).2
  clock_eq := by
    obtain ⟨⟨hclock, -⟩, -⟩ := by simpa using h.pairwise
    rw [released, or_and, UInt8.and_assoc, UInt8.not_and_self, UInt8.and_zero, UInt8.zero_or,
      UInt8.and_comm, hclock]

end SpiPins

/-! ## Vectors that reach the cable -/

/-- The vector that a request writes to the pins, if it is a scan. -/
def Request.vector? : Request → Option UInt8
  | .cable (.shiftDr scan) => scan.tx?.bind List.head?
  | _ => none

/-- The vector that an exchange has written to the pins. A scan that fails writes none. -/
def Exchange.vector? (exchange : Exchange Request Request.Answer) : Option UInt8 :=
  match Exchange.failure? exchange with
  | none => exchange.1.vector?
  | some _ => none

/-- The last vector that has reached the cable. -/
def lastVector? (exchanges : List (Exchange Request Request.Answer)) : Option UInt8 :=
  (exchanges.filterMap Exchange.vector?).getLast?

namespace SpiPins

/-- Every vector that the request may write has the chip selected. -/
def KeepsSelected (pins : SpiPins) (request : Request) : Prop :=
  ∀ vector, request.vector? = some vector → pins.Selects vector

/-- The chip has been left released, with the clock low. -/
def LeftReleased (pins : SpiPins) (exchanges : List (Exchange Request Request.Answer)) : Prop :=
  ∃ vector, lastVector? exchanges = some vector ∧ pins.Rests vector

/-- No vector has reached the cable but such as select the chip. -/
def LeftSelected (pins : SpiPins) (exchanges : List (Exchange Request Request.Answer)) : Prop :=
  ∀ vector ∈ exchanges.filterMap Exchange.vector?, pins.Selects vector

end SpiPins

namespace SpiEncoding.BitBang

variable {pins : SpiPins} {α : Type} {exchanges : List (Exchange Request Request.Answer)}

/-- The exchanges end with those of a release, which has come to `released`. -/
def ClosedBy (pins : SpiPins) (exchanges : List (Exchange Request Request.Answer))
    (released : Except Error Unit) : Prop :=
  ∃ past closing, exchanges = past ++ closing ∧ Host.Runs (release pins) closing released

/-! ## Within a transaction -/

open Host (asks_bind)
open SpiPins (KeepsSelected LeftSelected LeftReleased)

/-- A call that writes no vector. -/
theorem asks_silent {call : CableCall} (h : (Request.cable call).vector? = none) :
    Dialogue.Asks pins.KeepsSelected (Host.call call) := by
  refine ⟨fun vector hvector => ?_, fun _ => trivial⟩
  cases h.symm.trans hvector

/-- A scan that selects the chip keeps it selected. -/
theorem asks_scan {vector : UInt8} (h : pins.Selects vector) (rxLength? : Option Nat) :
    (ExceptT.run (Host.shiftDr ⟨some [vector], rxLength?, 8, .runTestIdle⟩)).Asks
      pins.KeepsSelected := by
  let scan : Scan := ⟨some [vector], rxLength?, 8, .runTestIdle⟩
  have hcall : (ExceptT.run (ExceptT.mk (Host.call (.shiftDr scan)) : Host Bytes)).Asks
      pins.KeepsSelected := by
    refine ⟨fun written hvector => ?_, fun _ => trivial⟩
    rw [← Option.some.inj hvector]
    exact h
  exact asks_bind hcall fun _ => trivial

theorem asks_write {vector : UInt8} (h : pins.Selects vector) :
    (ExceptT.run (write vector)).Asks pins.KeepsSelected :=
  asks_bind (asks_scan h none) fun _ => asks_silent rfl

/-- To select a chip is to write one vector that does. -/
theorem asks_select (h : pins.Disjoint) :
    (ExceptT.run (select pins)).Asks pins.KeepsSelected :=
  asks_bind (asks_write (SpiPins.selects_low h false)) fun _ => asks_silent rfl

/-- The chip stays selected while a byte is clocked out, whatever answers. -/
theorem asks_clockByte (h : pins.Disjoint) (byte : UInt8) :
    (ExceptT.run (clockByte pins byte)).Asks pins.KeepsSelected := by
  have hbit : ∀ bit, (ExceptT.run (clockBit pins bit)).Asks pins.KeepsSelected := fun bit =>
    asks_bind (asks_write (SpiPins.selects_low h bit)) fun _ =>
      asks_bind (asks_bind (asks_scan (SpiPins.selects_high h bit) (some 1)) fun _ =>
        asks_bind (asks_silent rfl) fun _ => trivial) fun _ =>
          asks_bind (asks_silent rfl) fun _ => trivial
  have hbits : ∀ bits, (ExceptT.run (clockBits pins bits)).Asks pins.KeepsSelected := by
    intro bits
    induction bits with
    | nil => trivial
    | cons bit rest ih => exact asks_bind (hbit bit) fun _ => asks_bind ih fun _ => trivial
  exact asks_bind (hbits _) fun _ => trivial

/-- What asks only for vectors that select the chip leaves it selected. -/
theorem leftSelected_of_asks {d : HostDialogue α} {value : α} (h : d.Asks pins.KeepsSelected)
    (hruns : Dialogue.Runs d exchanges value) : LeftSelected pins exchanges := by
  intro vector hmem
  obtain ⟨exchange, hexchange, hvector⟩ := List.mem_filterMap.mp hmem
  refine h.of_runs hruns exchange hexchange vector ?_
  unfold Exchange.vector? at hvector
  split at hvector
  · exact hvector
  · cases hvector

theorem leftSelected_append {first second : List (Exchange Request Request.Answer)}
    (h : LeftSelected pins first) (h' : LeftSelected pins second) :
    LeftSelected pins (first ++ second) := by
  intro vector hmem
  rw [List.filterMap_append, List.mem_append] at hmem
  exact hmem.elim (h vector) (h' vector)

/-! ## At the end of a transaction -/

/-- A release that succeeds has written the last vector. -/
theorem leftReleased_of_closedBy (h : pins.Disjoint) (hclosed : ClosedBy pins exchanges (.ok ())) :
    LeftReleased pins exchanges := by
  -- A release is a scan, clock pulses and a flush: the vector is that of the scan.
  obtain ⟨past, closing, rfl, hruns⟩ := hclosed
  obtain ⟨_, _, flushed, rfl, hwrite, hflush⟩ := hruns.of_bind
  obtain ⟨_, _, toggled, rfl, hscan, htoggle⟩ := hwrite.of_bind
  obtain ⟨captured, _, _, rfl, hcall, hpure⟩ := hscan.of_bind
  obtain rfl := Dialogue.runs_put_iff.mp hflush
  obtain rfl := Dialogue.runs_put_iff.mp htoggle
  obtain rfl := Dialogue.runs_put_iff.mp hcall
  obtain ⟨rfl, -⟩ := Host.runs_pure_iff.mp hpure
  refine ⟨pins.released, ?_, SpiPins.rests_released h⟩
  rw [lastVector?, List.filterMap_append, List.getLast?_append]
  rfl

/-- A transaction breaks off with the chip selected, or it comes to the release. -/
theorem runs_transact (h : pins.Disjoint) {bytes : Bytes} {receipt : Receipt}
    (hruns : Dialogue.Runs (transact pins bytes) exchanges receipt) :
    (LeftSelected pins exchanges ∧ ∃ error, receipt.ending = .error error) ∨
      ClosedBy pins exchanges receipt.ending := by
  -- Through the three parts of a transaction, up to the one that fails.
  obtain ⟨first, selected, rest, rfl, hselect, hrest⟩ := Dialogue.runs_bind_iff.mp hruns
  have hfirst := leftSelected_of_asks (asks_select h) hselect
  cases selected with
  | error error =>
    obtain ⟨rfl, rfl⟩ := Dialogue.runs_done_iff.mp hrest
    rw [List.append_nil]
    exact .inl ⟨hfirst, error, rfl⟩
  | ok _ =>
    obtain ⟨middle, clocked, last, rfl, hbytes, hlast⟩ := Dialogue.runs_bind_iff.mp hrest
    have hmiddle := leftSelected_of_asks (asks_clockBytes (asks_clockByte h) bytes []) hbytes
    obtain ⟨received, ending⟩ := clocked
    cases ending with
    | error error =>
      obtain ⟨rfl, rfl⟩ := Dialogue.runs_done_iff.mp hlast
      rw [List.append_nil]
      exact .inl ⟨leftSelected_append hfirst hmiddle, error, rfl⟩
    | ok _ =>
      obtain ⟨closing, released, _, rfl, hrelease, hdone⟩ := Dialogue.runs_bind_iff.mp hlast
      obtain ⟨rfl, rfl⟩ := Dialogue.runs_done_iff.mp hdone
      exact .inr ⟨first ++ middle, closing, by simp, hrelease⟩

/-- A caught program goes on with what it has come to. -/
theorem runs_attempt {β : Type} {program : Host α} {next : Except Error α → Host β}
    {result : Except Error β}
    (h : Host.Runs (ExceptT.lift (ExceptT.run program) >>= next) exchanges result) :
    ∃ value first second, exchanges = first ++ second ∧ Host.Runs program first value ∧
      Host.Runs (next value) second result := by
  obtain ⟨first, _, second, rfl, hlift, hnext⟩ := Dialogue.runs_bind_iff.mp h
  obtain ⟨_, value, _, rfl, hprogram, hdone⟩ := Dialogue.runs_bind_iff.mp hlift
  obtain ⟨rfl, rfl⟩ := Dialogue.runs_done_iff.mp hdone
  exact ⟨value, _, second, by rw [List.append_nil], hprogram, hnext⟩

/-- A poll does not select the chip, or it comes to the release, whatever came of it. -/
theorem runs_await {poll : Poll} {result : Except Error Unit}
    (hruns : Host.Runs ((bitBang pins).await poll) exchanges result) :
    (∃ error, result = .error error ∧ Host.Runs (select pins) exchanges (.error error)) ∨
      ∃ released, ClosedBy pins exchanges released ∧ (result = .ok () → released = .ok ()) := by
  obtain ⟨_, first, rest, rfl, -, hrest⟩ | hfailed := Host.runs_bind_iff.mp hruns
  · -- The polling is caught, so the release follows it in any case.
    obtain ⟨polled, middle, last, rfl, -, hlast⟩ := runs_attempt hrest
    obtain ⟨released, closing, _, rfl, hrelease, hdone⟩ := runs_attempt hlast
    obtain ⟨rfl, rfl⟩ := Dialogue.runs_done_iff.mp hdone
    refine .inr ⟨released, ⟨first ++ middle, closing, by simp, hrelease⟩, fun hok => ?_⟩
    cases polled with
    | ok _ => exact hok
    | error error => cases hok
  · exact .inl hfailed

/-! ## Transfers and polls -/

/-- The release at the end has failed. -/
def ReleaseFails (pins : SpiPins) (exchanges : List (Exchange Request Request.Answer)) : Prop :=
  ∃ error, ClosedBy pins exchanges (.error error)

/-- Whatever the cable answers and wherever it fails: what succeeds leaves the chip released. A
transfer that fails before its release leaves it selected. A poll that fails has released it all the
same, unless it had not even selected it. -/
theorem left_released (h : pins.Disjoint) :
    (∀ tx? rxLength? exchanges receipt,
      Dialogue.Runs ((bitBang pins).transfer tx? rxLength?) exchanges receipt →
        (receipt.ending = .ok () → LeftReleased pins exchanges) ∧
        ∀ error, receipt.ending = .error error →
          LeftSelected pins exchanges ∨ ReleaseFails pins exchanges) ∧
    (∀ poll exchanges result, Host.Runs ((bitBang pins).await poll) exchanges result →
        (result = .ok () → LeftReleased pins exchanges) ∧
        ∀ error, result = .error error →
          LeftReleased pins exchanges ∨ ReleaseFails pins exchanges ∨
            Host.Runs (select pins) exchanges (.error error)) := by
  refine ⟨fun tx? rxLength? exchanges receipt hruns => ?_, fun poll exchanges result hruns => ?_⟩
  · obtain ⟨_, transacted, _, rfl, htransact, hdone⟩ := Dialogue.runs_bind_iff.mp hruns
    obtain ⟨rfl, rfl⟩ := Dialogue.runs_done_iff.mp hdone
    rw [List.append_nil]
    -- A transfer fails while the chip is still selected, or it comes to the release.
    rcases runs_transact h htransact with ⟨hselected, error, herror⟩ | hclosed
    · refine ⟨fun hok => ?_, fun _ _ => .inl hselected⟩
      cases herror.symm.trans hok
    · refine ⟨fun hok => ?_, fun error herror => .inr ⟨error, ?_⟩⟩
      · rw [show transacted.ending = .ok () from hok] at hclosed
        exact leftReleased_of_closedBy h hclosed
      · rw [show transacted.ending = .error error from herror] at hclosed
        exact hclosed
  · rcases runs_await hruns with ⟨error, rfl, hselect⟩ | ⟨released, hclosed, hresult⟩
    · refine ⟨fun hok => ?_, fun error' herror => .inr (.inr ?_)⟩
      · cases hok
      · rw [← herror]
        exact hselect
    · refine ⟨fun hok => ?_, fun error herror => ?_⟩
      · rw [hresult hok] at hclosed
        exact leftReleased_of_closedBy h hclosed
      · -- The poll may have failed before a release that succeeds.
        cases released with
        | ok _ => exact .inl (leftReleased_of_closedBy h hclosed)
        | error error' => exact .inr (.inl ⟨error', hclosed⟩)

/-- The chip is released after a command has been sent to the simulated flash, and after its status
has been polled. -/
theorem left_released_standard :
    let sim := { Simulator.powerUp {} with ir := Instruction.spiBoundaryScan.opcode }
    let sends := Host.run Simulator.cable none
      (ExceptT.mk (Receipt.toExcept <$> (bitBang .standard).transfer (some [0x06]) none)) sim
    let polls := Host.run Simulator.cable none ((bitBang .standard).await ⟨0x05, 1, 0, 10, false⟩) sim
    SpiPins.standard.Disjoint ∧ LeftReleased .standard sends.exchanges ∧
      LeftReleased .standard polls.exchanges := by
  intro sim sends polls
  have hdisjoint : SpiPins.standard.Disjoint := ⟨by decide, by decide⟩
  obtain ⟨htransfer, hawait⟩ := left_released hdisjoint
  obtain ⟨exchanges, receipt, _, hexchanges, hruns, hdone⟩ :=
    Dialogue.runs_bind_iff.mp (Host.runs_run Simulator.cable none
      (ExceptT.mk (Receipt.toExcept <$> (bitBang .standard).transfer (some [0x06]) none)) sim)
  obtain ⟨rfl, hresult⟩ := Dialogue.runs_done_iff.mp hdone
  rw [List.append_nil] at hexchanges
  have hending : receipt.ending = .ok () := by
    have hsent : sends.result = .ok [] := by decide +kernel
    obtain ⟨received, ending⟩ := receipt
    cases ending with
    | ok _ => rfl
    | error error => cases hresult.trans hsent
  have hpolled : polls.result = .ok () := by decide +kernel
  refine ⟨hdisjoint, ?_, (hawait _ _ _ (Host.runs_run ..)).1 hpolled⟩
  rw [show sends.exchanges = exchanges from hexchanges]
  exact (htransfer _ _ _ _ hruns).1 hending

/-- A cable that fails once, in the first bit of a transfer, leaves the chip selected, and no
release is tried. So does one that fails once while the chip is selected for a poll. A poll in whose
first bit the cable fails releases the chip. -/
theorem left_selected :
    let sim := { Simulator.powerUp {} with ir := Instruction.spiBoundaryScan.opcode }
    let cable := Simulator.cable.failingOnce .transport
    let poll := (bitBang .standard).await ⟨0x05, 1, 0, 10, false⟩
    let sends := Host.run cable none
      (ExceptT.mk (Receipt.toExcept <$> (bitBang .standard).transfer (some [0x06]) none)) (sim, 5)
    let selects := Host.run cable none poll (sim, 2)
    let polls := Host.run cable none poll (sim, 5)
    SpiPins.standard.Disjoint ∧
      (sends.result = .error .transport ∧
        sends.exchanges.countP (fun exchange => (Exchange.failure? exchange).isSome) = 1 ∧
        SpiPins.standard.released ∉ sends.exchanges.filterMap (·.1.vector?) ∧
        lastVector? sends.exchanges = some 0xC0 ∧ sends.device.1.bus.selected = true) ∧
      (selects.result = .error .transport ∧
        selects.exchanges.countP (fun exchange => (Exchange.failure? exchange).isSome) = 1 ∧
        SpiPins.standard.released ∉ selects.exchanges.filterMap (·.1.vector?) ∧
        lastVector? selects.exchanges = some 0xC0 ∧ selects.device.1.bus.selected = true) ∧
      SpiPins.standard.Selects 0xC0 ∧ ¬ SpiPins.standard.Rests 0xC0 ∧
      (polls.result = .error .transport ∧ lastVector? polls.exchanges = some 0xC8 ∧
        SpiPins.standard.Rests 0xC8) := by
  intro sim cable poll sends selects polls
  refine ⟨⟨by decide, by decide⟩, ⟨?_, ?_, ?_, ?_, ?_⟩, ⟨?_, ?_, ?_, ?_, ?_⟩, rfl,
    fun hrests => hrests.select_ne rfl, ?_, ?_, ⟨by decide, by decide⟩⟩ <;> decide +kernel

end SpiEncoding.BitBang

end FpgaProgrammer
