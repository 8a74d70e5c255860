import FpgaProgrammer.Nor.Flash
import FpgaProgrammer.Spi.ChipDriver

/-!
# Transactions of a flash chip

A transaction exchanges one byte after the other: `Flash.answers` is what the chip drives, and
`Flash.receiveAll` the chip after it took the bytes (`transact_eq`). What it drives during a byte
does not depend on the bytes that follow (`answers_append`).

`Flash.serve` answers the requests of a chip driver by driving the chip itself, one transaction for
each request: it is what the encodings are measured by.
-/

namespace FpgaProgrammer

namespace Nor.Flash

/-- What the chip drives during each of the bytes it takes. -/
def answers (flash : Flash) : (bytes : Bytes) → Bytes
  | [] => []
  | byte :: bytes => flash.driven :: (flash.receive byte).answers bytes

/-- The chip after it took the bytes. -/
def receiveAll (flash : Flash) (bytes : Bytes) : Flash :=
  bytes.foldl receive flash

/-- The flash answers every byte with one. -/
@[simp]
theorem length_answers (flash : Flash) (bytes : Bytes) :
    (flash.answers bytes).length = bytes.length := by
  induction bytes generalizing flash with
  | nil => rfl
  | cons byte bytes ih => rw [answers, List.length_cons, ih, List.length_cons]

/-- The chip does not know which bytes will follow. -/
theorem answers_append (flash : Flash) (bytes rest : Bytes) :
    flash.answers (bytes ++ rest) =
      flash.answers bytes ++ (flash.receiveAll bytes).answers rest := by
  induction bytes generalizing flash with
  | nil => rfl
  | cons byte bytes ih => exact congrArg (flash.driven :: ·) (ih _)

/-- Bytes are answered one by one, each by a flash that has received those before. -/
theorem exchange_eq (flash : Flash) (bytes driven : Bytes) :
    flash.exchange bytes driven =
      (driven.reverse ++ flash.answers bytes, flash.receiveAll bytes) := by
  induction bytes generalizing flash driven with
  | nil => rw [exchange, answers, List.append_nil, receiveAll, List.foldl_nil]
  | cons byte bytes ih =>
    rw [exchange, ih, List.reverse_cons, List.append_assoc]
    rfl

/-- A transaction selects the chip, exchanges the bytes, and releases the chip. -/
theorem transact_eq (flash : Flash) (bytes : Bytes) :
    flash.transact bytes =
      (flash.select.answers bytes, (flash.select.receiveAll bytes).release) := by
  rw [transact, exchange_eq]
  rfl

/-- A transaction has as many answers as bytes. -/
@[simp]
theorem length_transact (flash : Flash) (bytes : Bytes) :
    (flash.transact bytes).1.length = bytes.length := by
  rw [transact_eq, length_answers]

end Nor.Flash

/-! ## Requests -/

namespace SpiEncoding

/-- A poll of a chip that has taken the command: the number of zero bytes exchanged until one of
them brings back the awaited value, and whether one does before the samples have run out. After the
first, `left` more may be taken. -/
def Poll.samples (poll : Poll) : (left : Nat) → (flash : Nor.Flash) → Nat × Except Error Unit
  | left, flash =>
    if flash.driven &&& poll.mask == poll.expected then (1, .ok ())
    else
      match left with
      | 0 => (1, .error .spiTimeout)
      | left + 1 =>
        let (count, ending) := poll.samples left (flash.receive 0)
        (count + 1, ending)

end SpiEncoding

/-- Answers the request of a chip driver by one transaction of the chip. -/
def Nor.Flash.serve : Handler SpiRequest SpiRequest.Answer Nor.Flash
  | .command code tx? rxLength?, flash =>
    let (driven, flash) := flash.transact (code :: SpiEncoding.outgoing tx? rxLength?)
    (.ok ((driven.drop 1).take (rxLength?.getD 0)), flash)
  | .transfer tx? rxLength?, flash =>
    let (driven, flash) := flash.transact (SpiEncoding.outgoing tx? rxLength?)
    (⟨driven.take (rxLength?.getD 0), .ok ()⟩, flash)
  | .await poll, flash =>
    let (count, ending) :=
      poll.samples (poll.timeout.toNat - 1) (flash.select.receive poll.command)
    (ending, (flash.transact (poll.command :: List.replicate count 0)).2)
  | .remark _, flash => ((), flash)

/-- A poll is one transaction: the chip takes the command, and as many zeros as samples are
taken. -/
theorem Nor.Flash.serve_await (flash : Nor.Flash) (poll : SpiEncoding.Poll) :
    flash.serve (.await poll) =
      ((poll.samples (poll.timeout.toNat - 1) (flash.select.receive poll.command)).2,
        ((flash.select.receive poll.command).receiveAll (List.replicate (poll.samples
          (poll.timeout.toNat - 1) (flash.select.receive poll.command)).1 0)).release) := by
  have htransact := congrArg Prod.snd (transact_eq flash (poll.command :: List.replicate
    (poll.samples (poll.timeout.toNat - 1) (flash.select.receive poll.command)).1 0))
  exact Prod.ext rfl htransact

end FpgaProgrammer
