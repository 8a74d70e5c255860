import FpgaProgrammer.Proofs.Nor.Cells

/-!
# Write protection over whole histories

A history of a chip is any sequence of calls: it is selected and released, and drives and receives
bytes, in whatever order and however often. What a chip stores are its array and its protection
bits.

* `Flash.Changes`: a call changes something that is stored.
* `Flash.changes_release`: only a release does, and only if the latch is set; it clears the latch.
* `Flash.latchedIn_of_enabled`: a latch that was clear and is set has been set by a transaction with
  the opcode of write enable.
* `Flash.calls_protected`: what holds of every change in every history of a chip that has just been
  powered up.
-/

namespace FpgaProgrammer.Nor.Flash

variable {flash : Flash}

/-! ## Histories -/

/-- A call to a chip. -/
inductive Call where
  /-- It is selected. -/
  | select
  /-- It drives a byte. -/
  | drive
  /-- It takes a byte. -/
  | receive (byte : UInt8)
  /-- It is released. -/
  | release
  deriving Repr, DecidableEq

/-- The chip after a call. Looking at what it drives does not change it. -/
def call (flash : Flash) : Call → Flash
  | .select => flash.select
  | .drive => flash
  | .receive byte => flash.receive byte
  | .release => flash.release

/-- `Flash.call` with every access checked. -/
def call? (flash : Flash) : Call → Option Flash
  | .select => some flash.select
  | .drive => flash.driven?.map fun _ => flash
  | .receive byte => flash.receive? byte
  | .release => flash.release?

/-- The chip after some calls. -/
def calls (flash : Flash) (history : List Call) : Flash :=
  history.foldl call flash

/-- The bytes of a transaction after one more call. -/
def Call.onBytes (bytes : Bytes) : Call → Bytes
  | .select | .release => []
  | .drive => bytes
  | .receive byte => bytes ++ [byte]

/-- The bytes of the transaction that is open after some calls: those that were received since the
chip was last selected or released. -/
def openBytes (history : List Call) : Bytes :=
  history.foldl Call.onBytes []

/-- The opcode of the transaction that is open after some calls. -/
def opcode? (history : List Call) : Option UInt8 :=
  (openBytes history).head?

theorem calls_append (flash : Flash) (first second : List Call) :
    flash.calls (first ++ second) = (flash.calls first).calls second :=
  List.foldl_append

/-! ## One call -/

/-- A chip holds the bytes of the transaction that is open. -/
theorem received_call (flash : Flash) (call : Call) :
    (flash.call call).received.toList = call.onBytes flash.received.toList := by
  cases call with
  | select => simp [Flash.call, select, Call.onBytes]
  | drive => rfl
  | receive byte =>
    simp only [Flash.call, receive, Call.onBytes]
    split <;> simp
  | release =>
    simp only [Flash.call, release, Call.onBytes]
    split <;> simp

/-- No call changes the size of the array. -/
theorem whole_call (h : flash.Whole) (call : Call) : (flash.call call).Whole := by
  cases call with
  | select => exact h.of_eq rfl rfl
  | drive => exact h
  | receive byte => exact h.receive byte
  | release => exact h.release

/-- No call changes the configuration. -/
theorem config_call (flash : Flash) (call : Call) : (flash.call call).config = flash.config := by
  cases call with
  | receive byte =>
    obtain ⟨_, _, hreceived⟩ := receive_frame flash byte
    simp [Flash.call, hreceived]
  | release => exact config_release flash
  | select | drive => rfl

/-- No access is out of bounds in a call to a chip whose array is bounded. -/
theorem call?_eq (h : flash.memory.Bounded) (call : Call) :
    flash.call? call = some (flash.call call) := by
  cases call with
  | select => rfl
  | drive => simp [call?, Flash.call, driven?_eq]
  | receive byte => exact receive?_eq flash byte
  | release => exact release?_eq h

/-- What a call can do to what a chip stores, and to the latch. -/
inductive Effect (flash : Flash) (call : Call) (after : Flash) : Prop
  /-- Nothing that is stored is touched. A latch that is set was set before, or it is set by the
  command of write enable. -/
  | latch (hmemory : after.memory = flash.memory)
      (hprotection : after.protection = flash.protection)
      (hset : after.writeEnabled = true → flash.writeEnabled = true ∨
        (call = .release ∧ flash.command? = some .writeEnable))
  /-- The protection bits are written. -/
  | protects (hrelease : call = .release) (henabled : flash.writeEnabled = true)
      (hmemory : after.memory = flash.memory) (hlatch : after.writeEnabled = false)
  /-- The array is written. -/
  | writes {command : Command} (hrelease : call = .release) (henabled : flash.writeEnabled = true)
      (hunprotected : flash.protection = 0) (hprotection : after.protection = flash.protection)
      (hlatch : after.writeEnabled = false) (hcommand : flash.command? = some command)
      (hcleared : command.erases = false → ∀ address, ∃ mask, after.memory.byte? address =
        (flash.memory.byte? address).map (· &&& mask))

/-- A release has the effect of its command, if there is one. -/
theorem effect_release (flash : Flash) : Effect flash .release flash.release := by
  unfold release
  cases hcommand : flash.command? with
  | none => exact .latch rfl rfl .inl
  | some command =>
    have hexecutes := executes flash command
    dsimp only
    generalize flash.execute command = after at hexecutes
    cases hexecutes with
    | latch hset =>
      refine .latch rfl rfl fun hafter => ?_
      rcases hset hafter with rfl | henabled
      · exact .inr ⟨rfl, hcommand⟩
      · exact .inl henabled
    | protects henabled => exact .protects rfl henabled rfl rfl
    | writes henabled hunprotected hcleared =>
      exact .writes rfl henabled hunprotected rfl rfl hcommand hcleared

/-- Every call has one of these effects. -/
theorem effect_call (flash : Flash) (call : Call) : Effect flash call (flash.call call) := by
  cases call with
  | select | drive => exact .latch rfl rfl .inl
  | receive byte =>
    obtain ⟨_, _, hreceived⟩ := receive_frame flash byte
    rw [Flash.call, hreceived]
    exact .latch rfl rfl .inl
  | release => exact effect_release flash

/-! ## Changes -/

/-- A call changes a cell or a protection bit. -/
def Changes (flash : Flash) (call : Call) : Prop :=
  (∃ address, (flash.call call).memory.byte? address ≠ flash.memory.byte? address) ∨
    (flash.call call).protection ≠ flash.protection

/-- Only a release changes what is stored, if the latch is set. It clears the latch. -/
theorem changes_release {call : Call} (h : flash.Changes call) :
    call = .release ∧ flash.writeEnabled = true ∧ (flash.call call).writeEnabled = false := by
  cases effect_call flash call with
  | latch hmemory hprotection _ => simp [Changes, hmemory, hprotection] at h
  | protects hrelease henabled _ hlatch => exact ⟨hrelease, henabled, hlatch⟩
  | writes hrelease henabled _ _ hlatch _ _ => exact ⟨hrelease, henabled, hlatch⟩

/-- A cell is only changed if nothing is protected. -/
theorem unprotected_of_changes {call : Call} {address : Nat}
    (h : (flash.call call).memory.byte? address ≠ flash.memory.byte? address) :
    flash.protection = 0 := by
  cases effect_call flash call with
  | latch hmemory _ _ => simp [hmemory] at h
  | protects _ _ hmemory _ => simp [hmemory] at h
  | writes _ _ hunprotected _ _ _ _ => exact hunprotected

/-- A bit of a cell is only set by a command that erases. -/
theorem erases_of_sets {call : Call} {address bit : Nat} {old new : UInt8}
    (hold : flash.memory.byte? address = some old)
    (hnew : (flash.call call).memory.byte? address = some new)
    (hclear : old.toNat.testBit bit = false) (hset : new.toNat.testBit bit = true) :
    ∃ command, flash.command? = some command ∧ command.erases = true := by
  have hne : (flash.call call).memory ≠ flash.memory := by
    intro hsame
    rw [hsame, hold] at hnew
    cases hnew
    simp [hclear] at hset
  cases effect_call flash call with
  | latch hmemory _ _ => exact absurd hmemory hne
  | protects _ _ hmemory _ => exact absurd hmemory hne
  | @writes command _ _ _ _ _ hcommand hcleared =>
    refine ⟨command, hcommand, ?_⟩
    cases herases : command.erases with
    | true => rfl
    | false =>
      -- What is left set by a command that does not erase was set before.
      obtain ⟨mask, hmask⟩ := hcleared herases address
      rw [hmask, hold] at hnew
      cases hnew
      simp [hclear] at hset

/-- The latch is only set by the command of write enable. -/
theorem enables_of_latch {call : Call} (hbefore : flash.writeEnabled = false)
    (hafter : (flash.call call).writeEnabled = true) :
    call = .release ∧ flash.command? = some .writeEnable := by
  cases effect_call flash call with
  | latch _ _ hset =>
    rcases hset hafter with henabled | henables
    · simp [hbefore] at henabled
    · exact henables
  | protects _ _ _ hlatch => simp [hlatch] at hafter
  | writes _ _ _ _ hlatch _ _ => simp [hlatch] at hafter

/-! ## Many calls -/

theorem whole_calls (h : flash.Whole) (history : List Call) : (flash.calls history).Whole := by
  induction history generalizing flash with
  | nil => exact h
  | cons call history ih => exact ih (whole_call h call)

theorem config_calls (flash : Flash) (history : List Call) :
    (flash.calls history).config = flash.config := by
  induction history generalizing flash with
  | nil => rfl
  | cons call history ih => exact (ih _).trans (config_call flash call)

/-- No call of a history is refused. -/
theorem foldlM_call? (h : flash.Whole) (history : List Call) :
    history.foldlM call? flash = some (flash.calls history) := by
  induction history generalizing flash with
  | nil => rfl
  | cons call history ih =>
    rw [List.foldlM_cons, call?_eq h.bounded]
    exact ih (whole_call h call)

/-- What a chip has received of the open transaction is what the history says. -/
theorem received_calls (flash : Flash) (history : List Call) :
    (flash.calls history).received.toList = history.foldl Call.onBytes flash.received.toList := by
  induction history generalizing flash with
  | nil => rfl
  | cons call history ih =>
    rw [List.foldl_cons, ← received_call]
    exact ih _

/-- The command that a chip knows is the one of the opcode that was received last. -/
theorem command?_calls (config : Config) (history : List Call) :
    ((powerUp config).calls history).command? = (opcode? history).bind Command.ofByte? := by
  have hreceived : ((powerUp config).calls history).received.toList = openBytes history :=
    received_calls ..
  rw [command?, opcode?, ← hreceived, List.head?_eq_getElem?, Array.getElem?_toList]

/-- During `middle`, after the calls in `past`, a transaction with the opcode of write enable is
completed. -/
def LatchedIn (past middle : List Call) : Prop :=
  ∃ first second, middle = first ++ .release :: second ∧ opcode? (past ++ first) = some 0x06

/-- One opcode alone sets the latch. -/
theorem ofByte?_writeEnable {byte : UInt8} (h : Command.ofByte? byte = some .writeEnable) :
    byte = 0x06 := by
  unfold Command.ofByte? at h
  grind

/-- The erasing commands have four opcodes, of which two stand for an erase of the chip. -/
theorem ofByte?_erases {byte : UInt8} {command : Command} (h : Command.ofByte? byte = some command)
    (herases : command.erases = true) : byte ∈ [0x20, 0xD8, 0x60, 0xC7] := by
  unfold Command.ofByte? at h
  grind [Command.erases]

/-- A latch that is clear after `past` and set after `middle` was set in between. -/
theorem latchedIn_of_enabled (config : Config) {past middle : List Call}
    (hbefore : ((powerUp config).calls past).writeEnabled = false)
    (hafter : ((powerUp config).calls (past ++ middle)).writeEnabled = true) :
    LatchedIn past middle := by
  -- On the calls in between, the first of which sets the latch or leaves it clear.
  induction middle generalizing past with
  | nil =>
    rw [List.append_nil, hbefore] at hafter
    cases hafter
  | cons call middle ih =>
    have hsplit : past ++ call :: middle = past ++ [call] ++ middle := by simp
    cases hnext : ((powerUp config).calls (past ++ [call])).writeEnabled with
    | false =>
      obtain ⟨first, second, rfl, hopcode⟩ := ih hnext (by rwa [← hsplit])
      exact ⟨call :: first, second, rfl, by simpa using hopcode⟩
    | true =>
      rw [calls_append] at hnext
      obtain ⟨rfl, hcommand⟩ := enables_of_latch hbefore hnext
      rw [command?_calls] at hcommand
      obtain ⟨byte, hopcode, hbyte⟩ := Option.bind_eq_some_iff.mp hcommand
      exact ⟨[], middle, rfl, by simpa [ofByte?_writeEnable hbyte] using hopcode⟩

/-- In every history of a chip that has just been powered up, no access is out of range and the
array keeps its size. What is stored changes only when the chip is released. Cells change only if
the latch was set and nothing was protected, and protection bits only if the latch was set. Every
change leaves the latch clear, so before it, and since the change before, a transaction with the
opcode of write enable was completed. And a bit of a cell is set only by a transaction with the
opcode of an erase. -/
theorem calls_protected (config : Config) (history : List Call) :
    history.foldlM call? (powerUp config) = some ((powerUp config).calls history) ∧
    ((powerUp config).calls history).memory.size = config.size ∧
    ∀ past call later, history = past ++ call :: later →
      let before := (powerUp config).calls past
      let after := before.call call
      (before.Changes call → call = .release ∧ before.writeEnabled = true ∧
        after.writeEnabled = false ∧ LatchedIn [] past ∧
        ∀ earlier change middle, past = earlier ++ change :: middle →
          ((powerUp config).calls earlier).Changes change →
          LatchedIn (earlier ++ [change]) middle) ∧
      (∀ address, after.memory.byte? address ≠ before.memory.byte? address →
        before.protection = 0) ∧
      ∀ address old new bit, before.memory.byte? address = some old →
        after.memory.byte? address = some new → old.toNat.testBit bit = false →
        new.toNat.testBit bit = true →
        ∃ opcode ∈ [0x20, 0xD8, 0x60, 0xC7], opcode? past = some opcode := by
  have hwhole := whole_powerUp config
  refine ⟨foldlM_call? hwhole history, ?_, ?_⟩
  · rw [(whole_calls hwhole history).size_eq, config_calls]
    rfl
  · rintro past call later - before after
    refine ⟨fun hchanges => ?changes, fun address => unprotected_of_changes, ?sets⟩
    case changes =>
      obtain ⟨hrelease, henabled, hlatch⟩ := changes_release hchanges
      refine ⟨hrelease, henabled, hlatch, latchedIn_of_enabled config rfl henabled, ?_⟩
      rintro earlier change middle rfl hearlier
      -- The change before has left the latch clear.
      obtain ⟨-, -, hcleared⟩ := changes_release hearlier
      refine latchedIn_of_enabled config ?_ ?_
      · rw [calls_append]
        exact hcleared
      · simpa [before] using henabled
    case sets =>
      intro address old new bit hold hnew hclear hset
      obtain ⟨command, hcommand, herases⟩ := erases_of_sets hold hnew hclear hset
      rw [command?_calls] at hcommand
      obtain ⟨byte, hopcode, hbyte⟩ := Option.bind_eq_some_iff.mp hcommand
      exact ⟨byte, ofByte?_erases hbyte herases, hopcode⟩

/-- A page is programmed, and the sector that holds it erased again: each time the latch was set
since the change before, and only the erase sets bits. -/
theorem calls_protected_twice :
    let transaction (bytes : Bytes) : List Call := .select :: bytes.map .receive ++ [.release]
    let programmed := transaction [0x06] ++ transaction [0x02, 0, 0, 0, 0x5A]
    let erasing := transaction [0x06] ++
      [.select, .receive 0x20, .receive 0, .receive 0, .receive 0]
    let flash := (powerUp {}).calls (programmed ++ erasing)
    flash.memory.byte? 0 = some 0x5A ∧ (flash.call .release).memory.byte? 0 = some 0xFF ∧
      LatchedIn programmed erasing ∧
      ∃ opcode ∈ [0x20, 0xD8, 0x60, 0xC7], opcode? (programmed ++ erasing) = some opcode := by
  intro transaction programmed erasing flash
  have hold : flash.memory.byte? 0 = some 0x5A := by decide +kernel
  have hnew : (flash.call .release).memory.byte? 0 = some 0xFF := by decide +kernel
  obtain ⟨-, -, hprotected⟩ := calls_protected {} (programmed ++ erasing ++ [.release])
  obtain ⟨hchanges, -, hsets⟩ := hprotected (programmed ++ erasing) .release [] rfl
  let programming := transaction [0x06] ++
    [.select, .receive 0x02, .receive 0, .receive 0, .receive 0, .receive 0x5A]
  have hprogrammed : ((powerUp {}).calls programming).Changes .release :=
    .inl ⟨0, by decide +kernel⟩
  refine ⟨hold, hnew, ?_, hsets 0 0x5A 0xFF 0 hold hnew (by decide) (by decide)⟩
  have herased : flash.Changes .release := .inl ⟨0, by simp [hold, hnew]⟩
  obtain ⟨-, -, -, -, hbetween⟩ := hchanges herased
  exact hbetween programming .release erasing rfl hprogrammed

end FpgaProgrammer.Nor.Flash
