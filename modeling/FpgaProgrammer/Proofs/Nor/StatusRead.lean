import FpgaProgrammer.Proofs.Bytes.Bits
import FpgaProgrammer.Proofs.Nor.Protection

/-!
# Reading the status register

While the status is read, each byte that is clocked brings back the status, and a running write one
byte nearer to its end.

* `Flash.driven_of_status`, `Flash.receive_of_status`, `Flash.release_of_status`: what the chip does
  in such a transaction.
* `Flash.Guarded`: of the bits that are stored in the status, only those are set that protect.
  `guarded_calls`: so it is in every chip, whatever it has gone through.
* `Flash.status_and_busyBit`: the busy bit says whether a write is running.
-/

namespace FpgaProgrammer.Nor.Flash

variable {flash after : Flash}

/-! ## The busy bit -/

/-- No protection bits are set but those that there are. -/
def Guarded (flash : Flash) : Prop :=
  flash.protection &&& protectBits = flash.protection

/-- A chip is powered up with all protection bits set, or with none. -/
theorem guarded_powerUp (config : Config) : (powerUp config).Guarded := by
  unfold powerUp Guarded
  dsimp only
  split <;> decide

theorem Guarded.of_eq (h : flash.Guarded) (hsame : after.protection = flash.protection) :
    after.Guarded := by
  rw [Guarded, hsame]
  exact h

/-- A write of the status register stores no bit that is not a protection bit. -/
theorem Guarded.writeStatus (h : flash.Guarded) : flash.writeStatus.Guarded := by
  unfold Flash.writeStatus
  split
  · exact h
  · split
    · show (_ &&& protectBits) &&& protectBits = _ &&& protectBits
      rw [UInt8.and_assoc, UInt8.and_self]
    · exact h

theorem Guarded.pageProgram (h : flash.Guarded) : flash.pageProgram.Guarded := by
  unfold Flash.pageProgram
  split
  · exact h
  · dsimp only
    split <;> exact h

theorem Guarded.eraseBlock (h : flash.Guarded) (size : Nat) : (flash.eraseBlock size).Guarded := by
  unfold Flash.eraseBlock
  split
  · exact h
  · split <;> exact h

theorem Guarded.eraseChip (h : flash.Guarded) : flash.eraseChip.Guarded := by
  unfold Flash.eraseChip
  split <;> exact h

/-- No command sets a bit that does not protect. -/
theorem Guarded.execute (h : flash.Guarded) (command : Command) :
    (flash.execute command).Guarded := by
  cases command with
  | writeStatus => exact h.writeStatus
  | pageProgram => exact h.pageProgram
  | eraseSector => exact h.eraseBlock 4096
  | eraseBlock => exact h.eraseBlock 65536
  | eraseChip => exact h.eraseChip
  | writeEnable | writeDisable | read | readStatus | readId => exact h

theorem Guarded.release (h : flash.Guarded) : flash.release.Guarded := by
  unfold Flash.release
  split
  · exact h
  · exact (h.execute _).of_eq rfl

theorem Guarded.call (h : flash.Guarded) (call : Call) : (flash.call call).Guarded := by
  cases call with
  | select | drive => exact h
  | receive byte =>
    obtain ⟨_, _, hreceived⟩ := receive_frame flash byte
    rw [Flash.call, hreceived]
    exact h
  | release => exact h.release

/-- After any history of calls, the protection bits are all that is stored of the status. -/
theorem guarded_calls (config : Config) (history : List Call) :
    ((powerUp config).calls history).Guarded := by
  -- On the calls, with any chip to begin with.
  suffices hall : ∀ flash : Flash, flash.Guarded → (flash.calls history).Guarded from
    hall _ (guarded_powerUp config)
  intro flash h
  induction history generalizing flash with
  | nil => exact h
  | cons call history ih => exact ih _ (h.call call)

/-- The busy bit is set while a write is running. -/
theorem status_and_busyBit (h : flash.Guarded) :
    flash.status &&& busyBit = 0 ↔ flash.busy = 0 := by
  have hprotection : flash.protection &&& busyBit = 0 := by
    rw [← h, UInt8.and_assoc]
    exact UInt8.and_zero
  have hlatch : (if flash.writeEnabled then latchBit else 0) &&& busyBit = 0 := by
    split <;> rfl
  rw [status, Bytes.or_and, Bytes.or_and, hprotection, hlatch, UInt8.zero_or, UInt8.or_zero]
  cases hbusy : flash.busy <;> simp [isBusy, hbusy, busyBit]

/-! ## Status bytes -/

/-- A transaction that began with the opcode of a status read is a status read. -/
theorem command?_of_status (h : flash.received[0]? = some 0x05) :
    flash.command? = some .readStatus := by
  rw [command?, h]
  rfl

/-- The chip is as it was, but for the bytes of the transaction, and so many status bytes are left
until a write has ended. -/
def CountedTo (flash : Flash) (busy : Nat) (after : Flash) : Prop :=
  ∃ received, after = { flash with busy, received }

/-- The status goes out with every byte. -/
theorem driven_of_status (h : flash.received[0]? = some 0x05) : flash.driven = flash.status := by
  unfold driven
  rw [command?_of_status h]

/-- A byte that is pushed behind the command leaves the command. -/
theorem getElem?_push_of_status {received : Array UInt8} (h : received[0]? = some 0x05)
    (byte : UInt8) : (received.push byte)[0]? = some 0x05 := by
  rw [Array.getElem?_push_lt (Array.getElem?_eq_some_iff.mp h).1]
  exact congrArg some (Array.getElem?_eq_some_iff.mp h).2

/-- Every byte after the command brings a running write nearer to its end. -/
theorem receive_of_status (h : flash.received[0]? = some 0x05) (byte : UInt8) :
    flash.receive byte =
      { flash with received := flash.received.push byte, busy := flash.busy - 1 } := by
  have hsize : 0 < flash.received.size := (Array.getElem?_eq_some_iff.mp h).1
  have hcommand : ({ flash with received := flash.received.push byte } : Flash).command? =
      some .readStatus := command?_of_status (getElem?_push_of_status h byte)
  unfold receive
  dsimp only
  rw [hcommand, if_pos]
  simpa using hsize

/-- Nothing is written in the end. -/
theorem release_of_status (h : flash.received[0]? = some 0x05) :
    flash.release = { flash with received := #[] } := by
  unfold Flash.release
  rw [command?_of_status h]
  rfl

/-- The first status byte of a transaction is the status before it. -/
theorem answers_status (flash : Flash) :
    (flash.transact [0x05, 0]).1 = [flash.select.driven, flash.status] := by
  have hfirst : (flash.select.receive 0x05).received[0]? = some 0x05 := rfl
  rw [transact_eq]
  show [_, (flash.select.receive 0x05).driven] = _
  rw [driven_of_status hfirst]
  rfl

/-- A transaction that reads the status twice. -/
theorem countedTo_transact (flash : Flash) :
    flash.CountedTo (flash.busy - 2) (flash.transact [0x05, 0, 0]).2 := by
  have hfirst : (flash.select.receive 0x05).received[0]? = some 0x05 := rfl
  have hlast : flash.select.receiveAll [0x05, 0, 0] =
      { flash with received := #[0x05, 0, 0], busy := flash.busy - 2 } := by
    show ((flash.select.receive 0x05).receive 0).receive 0 = _
    rw [receive_of_status hfirst, receive_of_status (getElem?_push_of_status hfirst 0)]
    rfl
  rw [transact_eq, hlast, release_of_status rfl]
  exact ⟨_, rfl⟩

end FpgaProgrammer.Nor.Flash
