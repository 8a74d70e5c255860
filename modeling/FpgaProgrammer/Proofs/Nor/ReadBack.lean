import FpgaProgrammer.Proofs.Bytes.Blocks
import FpgaProgrammer.Proofs.Nor.Cells

/-!
# Erasing, programming and reading back

A string is written to a flash by erasing the sectors that it overlaps, and then programming it page
by page; each transaction that writes follows one that sets the latch (`Flash.writeSteps`). Between
the transactions, the status may be read as often as one likes.

* `Flash.Holds`: what the array of an unprotected chip is, and whether the latch is set. Reading the
  status or the array changes neither (`Flash.Holds.reading`).
* `Flash.Leads`: what steps lead to, whatever status reads come in between.
* `Flash.leads_writeSteps`: writing leads to the array whose sectors were erased and whose pages
  were programmed.
* `Flash.transact_read`: what a read transaction returns.
* `Flash.read_written`: what was written is read back, and no other sector has changed.
-/

namespace FpgaProgrammer.Nor

/-! ## Sectors and pages of the array -/

namespace Memory

/-- Erases sectors of 4 KiB, given by their numbers. -/
def eraseSectors (memory : Memory) (sectors : List Nat) : Memory :=
  sectors.foldl
    (fun memory sector => memory.eraseRange (sector * 4096) (sector * 4096 + 4096)) memory

/-- Programs blocks from the start of a page on, each into a page of its own. -/
def programBlocks (memory : Memory) : (page : Nat) → (blocks : List Bytes) → Memory
  | _, [] => memory
  | page, block :: blocks => (Flash.programPage memory page 0 block).programBlocks (page + 1) blocks

/-- The cells of the sectors are erased, and all others as they were. -/
theorem byte?_eraseSectors (memory : Memory) (sectors : List Nat) (address : Nat) :
    (memory.eraseSectors sectors).byte? address =
      if address / 4096 ∈ sectors then (memory.byte? address).map fun _ => erasedByte
      else memory.byte? address := by
  induction sectors generalizing memory with
  | nil => simp [eraseSectors]
  | cons sector sectors ih =>
    rw [eraseSectors, List.foldl_cons]
    refine (ih _).trans ?_
    have hsector : sector * 4096 ≤ address ∧ address < sector * 4096 + 4096 ↔
        address / 4096 = sector := by omega
    simp only [byte?_eraseRange, hsector, List.mem_cons]
    by_cases hthis : address / 4096 = sector
    · simp [hthis, Function.comp_def]
    · simp [hthis]

/-- Programming blocks of erased cells stores the bytes of the blocks, and nothing elsewhere. -/
theorem byte?_programBlocks {memory : Memory} {page count : Nat} {data : Bytes}
    (hcount : data.length ≤ 256 * count)
    (herased : ∀ i < data.length, memory.byte? (256 * page + i) = some erasedByte) :
    (∀ i byte, data[i]? = some byte →
      (memory.programBlocks page (Bytes.takeBlocks 256 count data)).byte? (256 * page + i) =
        some byte) ∧
    ∀ address, address < 256 * page ∨ 256 * page + data.length ≤ address →
      (memory.programBlocks page (Bytes.takeBlocks 256 count data)).byte? address =
        memory.byte? address := by
  -- On the blocks: each is programmed into the next page, and the other pages are left alone.
  induction count generalizing memory page data with
  | zero =>
    obtain rfl : data = [] := List.eq_nil_of_length_eq_zero (by omega)
    exact ⟨fun i byte hbyte => by simp at hbyte, fun _ _ => rfl⟩
  | succ count ih =>
    obtain ⟨block, hblock⟩ : ∃ block, data.take 256 = block := ⟨_, rfl⟩
    obtain ⟨rest, hrest⟩ : ∃ rest, data.drop 256 = rest := ⟨_, rfl⟩
    have hblockLength : block.length = min 256 data.length := by rw [← hblock, List.length_take]
    have hrestLength : rest.length = data.length - 256 := by rw [← hrest, List.length_drop]
    have hothers : ∀ address, address < 256 * page ∨ 256 * page + block.length ≤ address →
        (Flash.programPage memory page 0 block).byte? address = memory.byte? address :=
      fun address houtside => Flash.byte?_programPage_of_outside memory (by omega) (by omega)
    have hstillErased : ∀ i < rest.length,
        (Flash.programPage memory page 0 block).byte? (256 * (page + 1) + i) = some erasedByte := by
      intro i hi
      have hlater := herased (256 + i) (by omega)
      rwa [hothers _ (by omega), show 256 * (page + 1) + i = 256 * page + (256 + i) by omega]
    obtain ⟨hstored, hkept⟩ := ih (by omega) hstillErased
    rw [Bytes.takeBlocks, programBlocks, hblock, hrest]
    refine ⟨fun i byte hbyte => ?_, fun address houtside => ?_⟩
    · have hi : i < data.length := (List.getElem?_eq_some_iff.mp hbyte).1
      rcases Nat.lt_or_ge i 256 with hthis | hnext
      · have hhere : block[i]? = some byte := by
          rw [← hblock, List.getElem?_take_of_lt hthis, hbyte]
        rw [hkept _ (by omega)]
        exact Flash.byte?_programPage_of_erased (by omega) hhere (herased i hi)
      · have hthere : rest[i - 256]? = some byte := by
          rw [← hrest, List.getElem?_drop, Nat.add_sub_cancel' hnext, hbyte]
        have hlater := hstored (i - 256) byte hthere
        rwa [show 256 * (page + 1) + (i - 256) = 256 * page + i by omega] at hlater
    · rw [hkept _ (by omega), hothers _ (by omega)]

end Memory

namespace Flash

variable {flash : Flash} {memory memory' memory'' : Memory} {enabled enabled' enabled'' : Bool}

/-! ## Transactions -/

/-- The three bytes of an address, most significant first. -/
def addressBytes (address : Nat) : Bytes :=
  [(address / 65536).toUInt8, (address / 256).toUInt8, address.toUInt8]

/-- Runs transactions one after the other: the chip afterwards. -/
def transactAll (flash : Flash) (transactions : List Bytes) : Flash :=
  transactions.foldl (fun flash bytes => (flash.transact bytes).2) flash

/-- The chip holds the array, nothing is protected, and the latch is set if `enabled`. -/
structure Holds (flash : Flash) (memory : Memory) (enabled : Bool) : Prop where
  /-- The array. -/
  memory_eq : flash.memory = memory
  /-- Nothing is protected. -/
  protection_eq : flash.protection = 0
  /-- The latch. -/
  writeEnabled_of : enabled = true → flash.writeEnabled = true

theorem Holds.isWritable (h : Holds flash memory true) : flash.isWritable = true :=
  isWritable_iff.mpr ⟨h.writeEnabled_of rfl, h.protection_eq⟩

/-- The chip has received the bytes that it was given. -/
theorem received_receiveAll (flash : Flash) (bytes : Bytes) :
    (flash.receiveAll bytes).received = flash.received ++ bytes.toArray := by
  induction bytes generalizing flash with
  | nil => simp [Flash.receiveAll]
  | cons byte bytes ih =>
    have hbyte : (flash.receive byte).received = flash.received.push byte := by
      unfold receive
      dsimp only
      split <;> rfl
    have hrest := ih (flash.receive byte)
    rw [hbyte] at hrest
    simpa [Flash.receiveAll] using hrest

/-- When a transaction ends, the chip has received its bytes. Nothing else has changed so far,
except that it may have counted status reads. -/
theorem transact_loaded (flash : Flash) (bytes : Bytes) :
    ∃ loaded busy, loaded = { flash with received := bytes.toArray, busy } ∧
      (flash.transact bytes).2 = loaded.release := by
  obtain ⟨received, busy, hframe⟩ := receiveAll_frame flash.select bytes
  have hreceived := received_receiveAll flash.select bytes
  rw [hframe] at hreceived
  obtain rfl : received = bytes.toArray := by simpa [select] using hreceived
  exact ⟨_, busy, hframe, by rw [transact_eq]⟩

/-- Bytes that are taken change neither the array nor the latch. -/
theorem Holds.receiveAll (h : Holds flash memory enabled) (bytes : Bytes) :
    Holds (flash.receiveAll bytes) memory enabled := by
  obtain ⟨_, _, hframe⟩ := receiveAll_frame flash bytes
  rw [hframe]
  exact ⟨h.memory_eq, h.protection_eq, h.writeEnabled_of⟩

/-- `transact_loaded`, with what the chip holds. -/
theorem Holds.transact (h : Holds flash memory enabled) (bytes : Bytes) :
    ∃ loaded, Holds loaded memory enabled ∧ loaded.received = bytes.toArray ∧
      (flash.transact bytes).2 = loaded.release := by
  obtain ⟨loaded, busy, hloaded, hafter⟩ := transact_loaded flash bytes
  refine ⟨loaded, ?_, by rw [hloaded], hafter⟩
  rw [hloaded]
  exact ⟨h.memory_eq, h.protection_eq, h.writeEnabled_of⟩

/-- What a command does when the chip is released. -/
theorem Holds.release {command : Command} (hcommand : flash.command? = some command)
    (h : Holds (flash.execute command) memory enabled) : Holds flash.release memory enabled := by
  rw [Flash.release, hcommand]
  exact ⟨h.memory_eq, h.protection_eq, h.writeEnabled_of⟩

/-- The first byte received stands for the command. -/
theorem command?_of_received {bytes : Bytes} (hreceived : flash.received = bytes.toArray) :
    flash.command? = bytes.head?.bind Command.ofByte? := by
  rw [command?, hreceived, List.getElem?_toArray, ← List.head?_eq_getElem?]

/-- The three bytes after the command stand for the address. -/
theorem address?_of_received {code : UInt8} {address : Nat} (data : Bytes)
    (haddress : address < 0x1000000)
    (hreceived : flash.received = (code :: addressBytes address ++ data).toArray) :
    flash.address? = some address := by
  simp only [address?, hreceived, addressBytes]
  simp
  omega

/-- Reading the status or the array leaves the array and the latch as they are, however many bytes
are read. -/
theorem Holds.reading (h : Holds flash memory enabled) {bytes : Bytes}
    (hbytes : bytes.head? = some 0x05 ∨ bytes.head? = some 0x03) :
    Holds (flash.transact bytes).2 memory enabled := by
  obtain ⟨loaded, hloaded, hreceived, hafter⟩ := h.transact bytes
  have hcommand := command?_of_received hreceived
  rw [hafter]
  rcases hbytes with hstatus | harray
  · rw [hstatus] at hcommand
    exact .release hcommand hloaded
  · rw [harray] at hcommand
    exact .release hcommand hloaded

/-- Write enable sets the latch. -/
theorem Holds.writeEnable (h : Holds flash memory enabled) :
    Holds (flash.transact [0x06]).2 memory true := by
  obtain ⟨loaded, hloaded, hreceived, hafter⟩ := h.transact [0x06]
  rw [hafter]
  exact .release (command?_of_received hreceived)
    ⟨hloaded.memory_eq, hloaded.protection_eq, fun _ => rfl⟩

/-- The sector that holds the address is erased. -/
theorem Holds.eraseSector (h : Holds flash memory true) {address : Nat}
    (haddress : address < 0x1000000) :
    Holds (flash.transact (0x20 :: addressBytes address)).2
      (memory.eraseRange (address / 4096 * 4096) (address / 4096 * 4096 + 4096)) false := by
  obtain ⟨loaded, hloaded, hreceived, hafter⟩ := h.transact (0x20 :: addressBytes address)
  rw [hafter]
  refine .release (command?_of_received hreceived) ?_
  have haddress? : loaded.address? = some address :=
    address?_of_received [] haddress (by simpa using hreceived)
  have hmemory := hloaded.memory_eq
  simp only [execute, Flash.eraseBlock, haddress?, hloaded.isWritable, hmemory]
  exact ⟨rfl, hloaded.protection_eq, nofun⟩

/-- A page program programs the bytes into the page of the address. It clears the latch and leaves
the chip busy. -/
theorem transact_pageProgram (henabled : flash.writeEnabled = true)
    (hprotection : flash.protection = 0) {address : Nat} (haddress : address < 0x1000000)
    {data : Bytes} (hdata : data ≠ []) :
    (flash.transact (0x02 :: addressBytes address ++ data)).2 =
      { flash with
        memory := programPage flash.memory (address / 256) (address % 256) data
        writeEnabled := false
        busy := flash.config.busyReads
        received := #[] } := by
  obtain ⟨loaded, busy, hloaded, hafter⟩ :=
    transact_loaded flash (0x02 :: addressBytes address ++ data)
  -- The command is decoded from what was received: an opcode, three bytes of an address, and data.
  have hreceived : loaded.received = (0x02 :: addressBytes address ++ data).toArray := by
    rw [hloaded]
  have hcommand : loaded.command? = some .pageProgram := command?_of_received hreceived
  have haddress? := address?_of_received data haddress hreceived
  have hrest : loaded.received.toList.drop 4 = data := by simp [hreceived, addressBytes]
  have hwritable : loaded.isWritable = true := by
    rw [isWritable_iff, hloaded]
    exact ⟨henabled, hprotection⟩
  have hnonempty : data.isEmpty = false := by simpa using hdata
  rw [hafter, release, hcommand]
  simp only [execute, Flash.pageProgram, haddress?, hrest, hwritable, hnonempty]
  simp [beginWrite, hloaded]

/-- The transaction of a page program changes the page of its address, if the latch is set. -/
theorem Holds.pageProgram (h : Holds flash memory true) {address : Nat}
    (haddress : address < 0x1000000) {data : Bytes} (hdata : data ≠ []) :
    Holds (flash.transact (0x02 :: addressBytes address ++ data)).2
      (programPage memory (address / 256) (address % 256) data) false := by
  rw [transact_pageProgram (h.writeEnabled_of rfl) h.protection_eq haddress hdata, h.memory_eq]
  exact ⟨rfl, h.protection_eq, nofun⟩

/-- From where the chip has received a read command and its address, it drives the cells one after
the other. -/
theorem answers_reading {address : Nat} {sent filler : Bytes} (haddress : address < 0x1000000)
    (hreceived : flash.received = (0x03 :: addressBytes address ++ sent).toArray) :
    flash.answers filler = (List.range' (address + sent.length) filler.length).map fun cell =>
      (flash.memory.byte? cell).getD 0xFF := by
  -- On the bytes that are still to be sent: the chip takes its place in the array from how many it
  -- has received, so those that were sent before are carried along.
  induction filler generalizing flash sent with
  | nil => rfl
  | cons byte filler ih =>
    have hcommand : flash.command? = some .read := command?_of_received hreceived
    have hdriven : flash.driven = (flash.memory.byte? (address + sent.length)).getD 0xFF := by
      have hcount : flash.received.size - 4 = sent.length := by simp [hreceived, addressBytes]
      simp only [driven, hcommand, address?_of_received sent haddress hreceived, hcount]
    have htaken : flash.receive byte = { flash with received := flash.received.push byte } := by
      have hstill : Flash.command? { flash with received := flash.received.push byte } =
          some .read := by
        rw [command?_of_received (hreceived ▸ List.push_toArray ..)]
        rfl
      simp [receive, hstill]
    have hlater : (flash.receive byte).received =
        (0x03 :: addressBytes address ++ (sent ++ [byte])).toArray := by simp [htaken, hreceived]
    rw [answers, hdriven, ih hlater, htaken]
    simp [List.range'_succ, Nat.add_assoc]

/-- What a read transaction returns after its header. -/
theorem transact_read (h : Holds flash memory enabled) {address : Nat}
    (haddress : address < 0x1000000) (filler : Bytes) :
    (flash.transact (0x03 :: addressBytes address ++ filler)).1.drop 4 =
      (List.range' address filler.length).map fun cell => (memory.byte? cell).getD 0xFF := by
  have hselected : Holds flash.select memory enabled :=
    ⟨h.memory_eq, h.protection_eq, h.writeEnabled_of⟩
  have hheader := hselected.receiveAll (0x03 :: addressBytes address)
  have hsent : (flash.select.receiveAll (0x03 :: addressBytes address)).received =
      (0x03 :: addressBytes address ++ []).toArray := by
    rw [received_receiveAll, List.append_nil]
    exact Array.empty_append
  rw [transact_eq, answers_append, List.drop_left' (by simp [addressBytes]),
    answers_reading haddress hsent, hheader.memory_eq]
  rfl

/-! ## Steps, with status reads in between -/

/-- The transaction reads the status. -/
def readsStatus (bytes : Bytes) : Bool :=
  bytes.head? == some 0x05

/-- The steps lead from an array to another, whatever status reads come in between. -/
def Leads (memory : Memory) (enabled : Bool) (steps : List Bytes) (memory' : Memory)
    (enabled' : Bool) : Prop :=
  ∀ (flash : Flash) (transactions : List Bytes), Holds flash memory enabled →
    transactions.filter (!readsStatus ·) = steps →
      Holds (flash.transactAll transactions) memory' enabled'

theorem Leads.nil : Leads memory enabled [] memory enabled := by
  intro flash transactions h hsteps
  induction transactions generalizing flash with
  | nil => exact h
  | cons bytes transactions ih =>
    rw [List.filter_eq_nil_iff, List.forall_mem_cons] at hsteps
    have hbytes : bytes.head? = some 0x05 := by simpa [readsStatus] using hsteps.1
    exact ih _ (h.reading (.inl hbytes)) (List.filter_eq_nil_iff.mpr hsteps.2)

/-- Steps that lead on from where others have led follow them, wherever the status is read. -/
theorem Leads.append {first rest : List Bytes}
    (hfirst : Leads memory enabled first memory' enabled')
    (hrest : Leads memory' enabled' rest memory'' enabled'') :
    Leads memory enabled (first ++ rest) memory'' enabled'' := by
  intro flash transactions h hsteps
  obtain ⟨before, after, rfl, hbefore, hafter⟩ := List.filter_eq_append_iff.mp hsteps
  rw [transactAll, List.foldl_append]
  exact hrest _ _ (hfirst _ _ h hbefore) hafter

/-- A transaction is a step if it leads from one array to the other on its own. -/
theorem Leads.step {bytes : Bytes}
    (hstep : ∀ flash, Holds flash memory enabled →
      Holds (flash.transact bytes).2 memory' enabled') :
    Leads memory enabled [bytes] memory' enabled' := by
  intro flash transactions h hsteps
  -- The step has status reads before it and after it.
  obtain ⟨before, after, rfl, hbefore, -, hafter⟩ := List.filter_eq_cons_iff.mp hsteps
  rw [transactAll, List.foldl_append, List.foldl_cons]
  exact Leads.nil _ _ (hstep _ (Leads.nil _ _ h (List.filter_eq_nil_iff.mpr hbefore))) hafter

/-! ## Writing a string -/

/-- The sectors of 4 KiB that so many addresses from `offset` on overlap. -/
def sectorsOf (offset length : Nat) : List Nat :=
  List.range' (offset / 4096) (Bytes.blockCount 4096 (offset + length) - offset / 4096)

/-- The transactions that erase sectors. -/
def eraseSteps (sectors : List Nat) : List Bytes :=
  sectors.flatMap fun sector => [[0x06], 0x20 :: addressBytes (4096 * sector)]

/-- The transactions that program blocks, each at the start of a page of its own. -/
def programSteps : (page : Nat) → (blocks : List Bytes) → List Bytes
  | _, [] => []
  | page, block :: blocks =>
    [0x06] :: (0x02 :: addressBytes (256 * page) ++ block) :: programSteps (page + 1) blocks

/-- The transactions that write a string from the start of a page on: the sectors that it overlaps
are erased, and it is programmed page by page. -/
def writeSteps (offset : Nat) (data : Bytes) : List Bytes :=
  eraseSteps (sectorsOf offset data.length) ++ programSteps (offset / 256) (Bytes.blocks 256 data)

/-- The sectors are those that overlap the addresses. -/
theorem mem_sectorsOf {offset length sector : Nat} :
    sector ∈ sectorsOf offset length ↔
      sector * 4096 < offset + length ∧ offset < sector * 4096 + 4096 := by
  unfold sectorsOf Bytes.blockCount
  rw [List.mem_range'_1]
  omega

/-- The erase steps lead to an array in which the sectors are erased. Each sets the latch that it
needs. -/
theorem leads_eraseSteps {sectors : List Nat}
    (hsectors : ∀ sector ∈ sectors, 4096 * sector < 0x1000000) :
    Leads memory false (eraseSteps sectors) (memory.eraseSectors sectors) false := by
  induction sectors generalizing memory with
  | nil => exact .nil
  | cons sector sectors ih =>
    rw [List.forall_mem_cons] at hsectors
    have hstart : 4096 * sector / 4096 * 4096 = sector * 4096 := by omega
    have henable : Leads memory false [[0x06]] memory true := .step fun _ => .writeEnable
    have herase : Leads memory true [0x20 :: addressBytes (4096 * sector)]
        (memory.eraseRange (sector * 4096) (sector * 4096 + 4096)) false :=
      .step fun _ h => hstart ▸ h.eraseSector hsectors.1
    exact (henable.append herase).append (ih hsectors.2)

/-- The program steps lead to an array in which the blocks are programmed, each in a page of its
own. -/
theorem leads_programSteps {page : Nat} {blocks : List Bytes}
    (hpages : 256 * (page + blocks.length) ≤ 0x1000000) (hblocks : ∀ block ∈ blocks, block ≠ []) :
    Leads memory false (programSteps page blocks) (memory.programBlocks page blocks) false := by
  induction blocks generalizing memory page with
  | nil => exact .nil
  | cons block blocks ih =>
    rw [List.length_cons] at hpages
    rw [List.forall_mem_cons] at hblocks
    have henable : Leads memory false [[0x06]] memory true := .step fun _ => .writeEnable
    have hprogram : Leads memory true [0x02 :: addressBytes (256 * page) ++ block]
        (programPage memory page 0 block) false := by
      have hpage : 256 * page < 0x1000000 := by omega
      have hstart : 256 * page / 256 = page ∧ 256 * page % 256 = 0 := by omega
      refine .step fun _ h => ?_
      simpa only [hstart] using h.pageProgram hpage hblocks.1
    exact (henable.append hprogram).append (ih (by omega) hblocks.2)

/-- Writing leads to the array whose sectors were erased and whose pages were programmed. -/
theorem leads_writeSteps {offset : Nat} {data : Bytes} (hbound : offset + data.length ≤ 0x1000000) :
    Leads memory false (writeSteps offset data)
      ((memory.eraseSectors (sectorsOf offset data.length)).programBlocks (offset / 256)
        (Bytes.blocks 256 data)) false := by
  refine .append (leads_eraseSteps fun sector hsector => ?_)
    (leads_programSteps ?_ fun block hblock => ?_)
  · have hoverlaps := mem_sectorsOf.mp hsector
    omega
  · rw [Bytes.length_blocks, Bytes.blockCount]
    omega
  · exact Bytes.ne_nil_of_mem_blocks (by decide) hblock

/-- A string written from the start of a page of an unprotected flash on is read back. No sector
that it does not overlap has changed. -/
theorem read_written {flash : Flash} (hprotection : flash.protection = 0)
    (hsize : flash.memory.size ≤ 0x1000000) {offset : Nat} (hoffset : 256 ∣ offset) {data : Bytes}
    (hdata : data ≠ []) (hwithin : offset + data.length ≤ flash.memory.size)
    {transactions : List Bytes}
    (htransactions : transactions.filter (!readsStatus ·) = writeSteps offset data)
    {filler : Bytes} (hfiller : filler.length = data.length) :
    let outcome :=
      (flash.transactAll transactions).transact (0x03 :: addressBytes offset ++ filler)
    outcome.1.drop 4 = data ∧
      ∀ address, address / 4096 ∉ sectorsOf offset data.length →
        outcome.2.memory.byte? address = flash.memory.byte? address := by
  intro outcome
  have hstart : Holds flash flash.memory false := ⟨rfl, hprotection, nofun⟩
  have hwritten := leads_writeSteps (Nat.le_trans hwithin hsize) flash transactions hstart
    htransactions
  -- All cells of the string have been erased, since their sectors overlap it.
  have herased : ∀ i < data.length,
      (flash.memory.eraseSectors (sectorsOf offset data.length)).byte? (256 * (offset / 256) + i) =
        some erasedByte := by
    intro i hi
    have hcell : (flash.memory.byte? (256 * (offset / 256) + i)).isSome :=
      Memory.isSome_byte?.mpr (by omega)
    obtain ⟨byte, hbyte⟩ := Option.isSome_iff_exists.mp hcell
    have hsector : (256 * (offset / 256) + i) / 4096 ∈ sectorsOf offset data.length :=
      mem_sectorsOf.mpr (by omega)
    rw [Memory.byte?_eraseSectors, if_pos hsector, hbyte, Option.map_some]
  obtain ⟨hstored, hkept⟩ :=
    Memory.byte?_programBlocks (Bytes.le_mul_blockCount (by decide) data.length) herased
  rw [Nat.mul_div_cancel' hoffset] at hstored hkept
  refine ⟨?_, fun address houtside => ?_⟩
  · have hlength : 0 < data.length := List.length_pos_iff.mpr hdata
    rw [transact_read hwritten (by omega), hfiller]
    refine List.ext_getElem (by simp) fun i hi hi' => ?_
    have hbyte := hstored i data[i] (List.getElem?_eq_getElem hi')
    rw [List.getElem_map, List.getElem_range', Nat.one_mul, Bytes.blocks, hbyte, Option.getD_some]
  · have hunwritten : address < offset ∨ offset + data.length ≤ address := by
      rw [mem_sectorsOf] at houtside
      omega
    rw [(hwritten.reading (.inr rfl)).memory_eq, Bytes.blocks, hkept address hunwritten,
      Memory.byte?_eraseSectors, if_neg houtside]

/-- A string that overlaps two sectors, with the status read after each step. -/
theorem read_written_across_sectors :
    let flash := powerUp { size := 16384 }
    let data : Bytes := List.replicate 300 0x5A
    let transactions := (writeSteps 3840 data).flatMap fun step => [step, [0x05, 0x00, 0x00]]
    let outcome := (flash.transactAll transactions).transact
      (0x03 :: addressBytes 3840 ++ List.replicate 300 0x00)
    outcome.1.drop 4 = data ∧
      ∀ address, address / 4096 ∉ sectorsOf 3840 data.length →
        outcome.2.memory.byte? address = flash.memory.byte? address := by
  intro flash data transactions outcome
  have hsteps : transactions.filter (!readsStatus ·) = writeSteps 3840 data := by decide +kernel
  have hlength : data.length = 300 := List.length_replicate
  have hdata : data ≠ [] := List.ne_nil_of_length_pos (hlength ▸ by decide)
  have hwithin : 3840 + data.length ≤ flash.memory.size := hlength ▸ by decide
  exact read_written rfl (by decide) (by decide) hdata hwithin hsteps
    (List.length_replicate.trans hlength.symm)

end Flash

end FpgaProgrammer.Nor
