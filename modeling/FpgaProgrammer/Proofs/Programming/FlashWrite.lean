import FpgaProgrammer.Device.EmbeddedFlash
import FpgaProgrammer.Proofs.Bytes.Blocks
import FpgaProgrammer.Proofs.Instructions.Sent
import FpgaProgrammer.Proofs.Programming.SramErase

/-!
# Writing the embedded flash of the simulated device

A page is sent as its address and 64 words, each with its bytes reversed. The device turns the
words round again and stores the page once it is full.

* `ends_writeWords`, `ends_writePage`: what arrives is the page that was sent.
* `ends_writePages`: the pages are stored one after the other (`Simulator.pagesStored`), each at
  its own address (`pageAddress_inj`) and nothing elsewhere.
* `ends_writeFlash`: the write succeeds exactly if the device finds a design to boot from.
-/

namespace FpgaProgrammer.Simulator

open Device.EmbeddedFlash (pageSize pageContent pageAddress)

variable (filter : LogFilter) {sim after : Simulator}

/-! ## The words of a page -/

/-- The device while it takes a page. -/
def taking (sim : Simulator) (address? : Option UInt32) (data : Bytes) : Simulator :=
  { sim with pageWrite? := some ⟨address?, data⟩ }

/-- The device after it stored a page. -/
def stored (sim : Simulator) (address : UInt32) (page : Bytes) : Simulator :=
  { sim with pageWrite? := none, pages := sim.pages.insert address page }

/-- While the device takes a page, a scan of four bytes brings a word. -/
theorem scan_flashProgram (hir : sim.ir = Instruction.flashProgram.opcode) {tx : Bytes}
    (htx : tx.length = 4) :
    sim.scan ⟨some tx, none, 32, .runTestIdle⟩ = ([], sim.receivePageWord (Bytes.wordLE tx)) := by
  have hlength : Bytes.blockCount 8 32 = 4 := rfl
  unfold scan
  rw [ofOpcode?_ir hir]
  dsimp only [Option.getD_some]
  rw [hlength, Bytes.fit, Bytes.fitWith_of_length htx, if_pos rfl]

/-- The first word of a page is its address. -/
theorem receivePageWord_address (hwrite : sim.pageWrite? = some ⟨none, []⟩) (address : UInt32) :
    sim.receivePageWord (Bytes.wordLE (Bytes.ofWordLE address)) =
      sim.taking (some address) [] := by
  unfold receivePageWord taking
  rw [hwrite, Bytes.wordLE_ofWordLE]

/-- A word of a page is kept as it was before its bytes were reversed. The page is stored once it
is full. -/
theorem receivePageWord_reverse {address : UInt32} {data word : Bytes}
    (hwrite : sim.pageWrite? = some ⟨some address, data⟩) (hword : word.length = 4) :
    sim.receivePageWord (Bytes.wordLE word.reverse) =
      if data.length + 4 = pageSize then sim.stored address (data ++ word)
      else sim.taking (some address) (data ++ word) := by
  unfold receivePageWord
  rw [hwrite]
  dsimp only
  rw [Bytes.ofWordBE_wordLE_reverse hword, List.length_append, hword]
  rfl

/-- The words of a page, sent to a device that took its address, complete the page. -/
theorem ends_writeWords (hir : sim.ir = Instruction.flashProgram.opcode) (delay : Nat)
    {address : UInt32} {data : Bytes}
    (hwrite : sim.pageWrite? = some ⟨some address, data⟩) {words : List Bytes}
    (hwords : ∀ word ∈ words, word.length = 4) (hsome : words ≠ [])
    (hlength : data.length + 4 * words.length = pageSize) :
    ∃ after, Ends filter (Device.EmbeddedFlash.writeWords delay words) sim (.ok ()) after ∧
      Traffic (sim.stored address (data ++ words.flatten)) after ∧ after.tap = .runTestIdle := by
  -- On the words: the data received before grows, and only the last word fills the page. Each scan
  -- leaves Shift-DR, so that no wait is taken for an erase pulse.
  induction words generalizing sim data with
  | nil => exact absurd rfl hsome
  | cons word words ih =>
    have hword : word.length = 4 := hwords word List.mem_cons_self
    have hscan := ends_shiftDr_of_scan filter
      (scan_flashProgram hir (List.length_reverse.trans hword))
    rw [receivePageWord_reverse hwrite hword] at hscan
    rw [List.length_cons] at hlength
    by_cases hlast : words = []
    · rw [hlast, List.length_nil, Nat.zero_add] at hlength
      rw [if_pos hlength] at hscan
      subst hlast
      rw [List.flatten_singleton]
      exact ⟨_, hscan.bind ((ends_idle ..).bind (ends_pure ..)),
        (traffic_inState ..).trans (traffic_toggleClock (.inr TapState.noConfusion) _), rfl⟩
    · have hmore : 0 < words.length := List.length_pos_iff.mpr hlast
      rw [if_neg (by omega)] at hscan
      let taken := (sim.taking (some address) (data ++ word)).inState .runTestIdle
      let rested := taken.toggleClock (Device.clocksFor taken.frequency delay)
      have htaken : Traffic (sim.taking (some address) (data ++ word)) rested :=
        (traffic_inState ..).trans (traffic_toggleClock (.inr TapState.noConfusion) _)
      have hir' : rested.ir = Instruction.flashProgram.opcode := hir
      have htaking : rested.pageWrite? = some ⟨some address, data ++ word⟩ := rfl
      obtain ⟨after, hends, htraffic, htap⟩ := ih hir' htaking
        (fun word hmem => hwords word (List.mem_cons_of_mem _ hmem)) hlast
        (by rw [List.length_append, hword]; omega)
      have hstored := htaken.map (·.stored address (data ++ word ++ words.flatten))
        (fun _ => rfl) fun _ => ⟨rfl, rfl⟩
      rw [List.flatten_cons, ← List.append_assoc]
      exact ⟨after, hscan.bind ((ends_idle ..).bind hends), hstored.trans htraffic, htap⟩

/-! ## Pages -/

/-- The words of a page are the page. -/
theorem flatten_words (page : Bytes) : (Bytes.blocks 4 page).flatten = page :=
  Bytes.flatten_blocks (by decide) page

/-- A page is full whatever is left of the data, and so is the one with the signature. -/
@[simp]
theorem length_pageContent (address : UInt32) (data : Bytes) :
    (pageContent address data).length = pageSize := by
  have hfit : (Bytes.fitWith 0xFF pageSize data).length = pageSize := Bytes.length_fitWith ..
  unfold Device.EmbeddedFlash.pageContent
  dsimp only
  split
  · rw [List.length_append, List.length_drop, hfit]
    rfl
  · exact hfit

/-- The device after the pause before a page, which the page at address 0 does not need. -/
def paused (sim : Simulator) (address : UInt32) : Simulator :=
  if address = 0 then sim else sim.toggleClock (Device.clocksFor sim.frequency 16)

/-- No pause is an erase pulse of a device that is outside of Shift-DR or has no erase under way. -/
theorem traffic_paused (hquiet : sim.eraseArmed = false ∨ sim.tap ≠ .shiftDr) (address : UInt32) :
    Traffic sim (sim.paused address) := by
  unfold paused
  split
  · exact .refl sim
  · exact traffic_toggleClock hquiet _

/-- A page that is written is stored at its address. -/
theorem ends_writePage (hstuck : sim.config.stuckEditMode = false)
    (delays : Device.EmbeddedFlash.Delays) (address : UInt32) (data : Bytes) :
    ∃ after, Ends filter (Device.EmbeddedFlash.writePage delays address data) sim (.ok ()) after ∧
      Traffic ({ sim.paused address with editMode := true }.stored address
        (pageContent address data)) after ∧ after.tap = .runTestIdle := by
  have hpause : ∀ {next : Host Unit} {after : Simulator},
      Ends filter next (sim.paused address) (.ok ()) after →
      Ends filter (if (address != 0) = true then Device.idle 16 >>= fun _ => next else next) sim
        (.ok ()) after := by
    intro next after hnext
    unfold paused at hnext
    by_cases hzero : address = 0
    · simpa [hzero] using hnext
    · rw [if_neg hzero] at hnext
      simpa [hzero] using (ends_idle ..).bind hnext
  have hstuck' : (sim.paused address).config.stuckEditMode = false := by
    unfold paused
    split <;> exact hstuck
  generalize sim.paused address = paused at hpause hstuck' ⊢
  have hopened := traffic_took paused .configEnable
  rw [execute_configEnable hstuck'] at hopened
  -- The instruction opens an empty page, whatever was left of an earlier one.
  let started := ((paused.took Instruction.configEnable.opcode).took Instruction.noop.opcode).took
    Instruction.flashProgram.opcode
  have hstarted : Traffic ({ paused with editMode := true }.taking none []) started :=
    (hopened.took .noop).took .flashProgram
  have hlength : (Bytes.ofWordLE address).length = 4 := rfl
  have hscan := ends_shiftDr_of_scan filter
    (scan_flashProgram (ir_took .. : started.ir = Instruction.flashProgram.opcode) hlength)
  rw [receivePageWord_address (hstarted.watched.read pageWrite? fun _ => rfl)] at hscan
  let addressed := (started.taking (some address) []).inState .runTestIdle
  let ready := addressed.toggleClock (Device.clocksFor addressed.frequency 16)
  have hready : Traffic ({ paused with editMode := true }.taking (some address) []) ready :=
    (hstarted.map (·.taking (some address) []) (fun _ => rfl) fun _ => ⟨rfl, rfl⟩).trans
      ((traffic_inState ..).trans (traffic_toggleClock (.inr TapState.noConfusion) _))
  -- 64 words of four bytes, which are the page again.
  have hlength : (pageContent address data).length = 4 * 64 := length_pageContent ..
  have hcount : (Bytes.blocks 4 (pageContent address data)).length = 64 := by
    rw [Bytes.length_blocks, hlength]
    rfl
  have hir : ready.ir = Instruction.flashProgram.opcode := ir_took ..
  have htaking : ready.pageWrite? = some ⟨some address, []⟩ := rfl
  obtain ⟨written, hwrite, hwritten, htap⟩ := ends_writeWords filter hir delays.word htaking
    (fun word hword => Bytes.length_of_mem_blocks (by decide) hlength hword)
    (List.ne_nil_of_length_pos (by rw [hcount]; decide)) (by rw [hcount]; rfl)
  have hwritten := (hready.map (·.stored address (pageContent address data)) (fun _ => rfl)
    fun _ => ⟨rfl, rfl⟩).trans (flatten_words _ ▸ hwritten)
  exact ⟨_, hpause ((ends_send ..).bind ((ends_send ..).bind ((ends_send ..).bind (hscan.bind
    ((ends_idle ..).bind (hwrite.bind (ends_idle ..))))))),
    hwritten.trans (traffic_toggleClock (.inr (by rw [htap]; exact TapState.noConfusion)) _), htap⟩

/-- The device after it stored pages from the one with the given index on. -/
def pagesStored (base : UInt32) (sim : Simulator) :
    (pages : List Bytes) → (index : Nat) → Simulator
  | [], _ => sim
  | data :: pages, index =>
    let address := pageAddress base index
    pagesStored base ({ sim with editMode := true }.stored address (pageContent address data)) pages
      (index + 1)

/-- Storing pages changes nothing but the gate and the pages. -/
theorem read_pagesStored {γ : Type} (sim : Simulator) (field : Simulator → γ)
    (hfield : ∀ sim address page,
      field ({ sim with editMode := true }.stored address page) = field sim)
    (base : UInt32) (pages : List Bytes) (index : Nat) :
    field (sim.pagesStored base pages index) = field sim := by
  induction pages generalizing sim index with
  | nil => rfl
  | cons data pages ih => exact (ih _ (index + 1)).trans (hfield ..)

/-- What storing pages leaves depends only on what lasts of the device. -/
theorem lasting_pagesStored (sim : Simulator) (base : UInt32) (pages : List Bytes) (index : Nat) :
    (sim.pagesStored base pages index).lasting = sim.lasting.pagesStored base pages index := by
  induction pages generalizing sim index with
  | nil => rfl
  | cons data pages ih => exact ih _ (index + 1)

/-- Storing pages does not touch a running SRAM erase. -/
theorem passing_pagesStored (sim : Simulator) (base : UInt32) (pages : List Bytes) (index : Nat) :
    (sim.pagesStored base pages index).eraseCountdown? = sim.eraseCountdown? ∧
      (sim.pagesStored base pages index).memoryErased = sim.memoryErased :=
  ⟨read_pagesStored sim eraseCountdown? (fun _ _ _ => rfl) base pages index,
    read_pagesStored sim memoryErased (fun _ _ _ => rfl) base pages index⟩

/-- Pages are stored in the same way before and after traffic. -/
theorem Traffic.pagesStored (h : Traffic sim after) (base : UInt32) (pages : List Bytes)
    (index : Nat) :
    Traffic (sim.pagesStored base pages index) (after.pagesStored base pages index) :=
  h.map _ (fun sim => lasting_pagesStored sim base pages index) fun sim =>
    passing_pagesStored sim base pages index

/-- Pages are stored in the same way before and after the status was read. -/
theorem Watched.pagesStored (h : Watched sim after) (base : UInt32) (pages : List Bytes)
    (index : Nat) :
    Watched (sim.pagesStored base pages index) (after.pagesStored base pages index) :=
  h.map _ (fun sim => lasting_pagesStored sim base pages index) fun sim =>
    passing_pagesStored sim base pages index

/-- Pages that are written are stored one after the other. Only the pause before the first of them
may be an erase pulse. -/
theorem ends_writePages_cons (hstuck : sim.config.stuckEditMode = false)
    (delays : Device.EmbeddedFlash.Delays) (base : UInt32) (data : Bytes) (pages : List Bytes)
    (index : Nat) :
    ∃ after, Ends filter (Device.EmbeddedFlash.writePages delays base (data :: pages) index) sim
        (.ok ()) after ∧
      Traffic ((sim.paused (pageAddress base index)).pagesStored base (data :: pages) index)
        after := by
  -- On the pages: each leaves the TAP controller outside of Shift-DR, where a pause is no pulse.
  induction pages generalizing sim data index with
  | nil =>
    obtain ⟨written, hwrite, hwritten, -⟩ :=
      ends_writePage filter hstuck delays (pageAddress base index) data
    exact ⟨written, hwrite.bind ((ends_progress ..).bind (ends_pure ..)), hwritten⟩
  | cons next pages ih =>
    obtain ⟨written, hwrite, hwritten, htap⟩ :=
      ends_writePage filter hstuck delays (pageAddress base index) data
    have hconfig : written.config = sim.config := by
      have hpaused : (sim.paused (pageAddress base index)).config = sim.config := by
        unfold paused
        split <;> rfl
      exact (hwritten.watched.read config fun _ => rfl).trans hpaused
    have hquiet : written.eraseArmed = false ∨ written.tap ≠ .shiftDr :=
      .inr (by rw [htap]; exact TapState.noConfusion)
    obtain ⟨after, hends, htraffic⟩ := ih (by rw [hconfig]; exact hstuck) next (index + 1)
    have hpaused := hwritten.trans (traffic_paused hquiet (pageAddress base (index + 1)))
    have hrest := (hpaused.pagesStored base (next :: pages) (index + 1)).trans htraffic
    refine ⟨after, hwrite.bind ((ends_progress ..).bind hends), ?_⟩
    rw [pagesStored]
    exact hrest

/-- Where no pause is an erase pulse, pages that are written are stored and no more. -/
theorem ends_writePages (hstuck : sim.config.stuckEditMode = false)
    (hquiet : sim.eraseArmed = false ∨ sim.tap ≠ .shiftDr)
    (delays : Device.EmbeddedFlash.Delays) (base : UInt32) (pages : List Bytes) (index : Nat) :
    ∃ after, Ends filter (Device.EmbeddedFlash.writePages delays base pages index) sim (.ok ())
        after ∧ Traffic (sim.pagesStored base pages index) after := by
  cases pages with
  | nil => exact ⟨sim, ends_pure .., .refl sim⟩
  | cons data pages =>
    obtain ⟨after, hends, htraffic⟩ :=
      ends_writePages_cons filter hstuck delays base data pages index
    have hpaused := traffic_paused hquiet (pageAddress base index)
    exact ⟨after, hends, (hpaused.pagesStored base (data :: pages) index).trans htraffic⟩

/-! ## What is stored where -/

/-- The page with the given index of data that is stored from a word address on: its bytes,
continued with erased ones. At address 0 it starts with the signature instead. -/
def imagePage (base : UInt32) (data : Bytes) (index : Nat) : Bytes :=
  let page := Bytes.fitWith 0xFF 256 (data.drop (256 * index))
  if base.toNat + 64 * index = 0 then [0x47, 0x57, 0x31, 0x4E] ++ page.drop 4 else page

/-- Pages lie 64 words apart. -/
theorem toNat_pageAddress {base : UInt32} {index : Nat} (h : base.toNat + 64 * index < 2 ^ 32) :
    (pageAddress base index).toNat = base.toNat + 64 * index := by
  have hwords : pageSize * index / 4 = 64 * index := by
    unfold Device.EmbeddedFlash.pageSize
    omega
  unfold Device.EmbeddedFlash.pageAddress
  rw [hwords, UInt32.toNat_add, UInt32.toNat_ofNat']
  omega

/-- What the host sends for a block of data is the page with its index. -/
theorem pageContent_eq {base : UInt32} {index : Nat} (h : base.toNat + 64 * index < 2 ^ 32)
    (data : Bytes) :
    pageContent (pageAddress base index) ((data.drop (pageSize * index)).take pageSize) =
      imagePage base data index := by
  have hfirst : pageAddress base index = 0 ↔ base.toNat + 64 * index = 0 := by
    rw [← UInt32.toNat_inj, toNat_pageAddress h, UInt32.toNat_zero]
  unfold Device.EmbeddedFlash.pageContent imagePage
  rw [Bytes.fitWith_take]
  simp [hfirst, Device.EmbeddedFlash.autobootSignature, Device.EmbeddedFlash.pageSize]

/-- Pages within the address space have addresses of their own. -/
theorem pageAddress_inj {base : UInt32} {i j : Nat} (hi : i < 2 ^ 26) (hj : j < 2 ^ 26)
    (h : pageAddress base i = pageAddress base j) : i = j := by
  have haddress : ∀ k < 2 ^ 26, (pageSize * k / 4).toUInt32.toNat = 64 * k := fun k hk => by
    rw [UInt32.toNat_ofNat', Device.EmbeddedFlash.pageSize, Nat.mod_eq_of_lt (by omega)]
    omega
  have hsame := congrArg UInt32.toNat ((UInt32.add_left_inj base).mp h)
  rw [haddress i hi, haddress j hj] at hsame
  exact Nat.eq_of_mul_eq_mul_left (by decide) hsame

/-- Nothing is stored elsewhere. -/
theorem pages_pagesStored_of_ne {base address : UInt32} {pages : List Bytes} {index : Nat}
    (h : ∀ i < pages.length, pageAddress base (index + i) ≠ address) :
    (sim.pagesStored base pages index).pages[address]? = sim.pages[address]? := by
  induction pages generalizing sim index with
  | nil => rfl
  | cons data pages ih =>
    have hfirst : pageAddress base index ≠ address := h 0 (Nat.succ_pos _)
    have hrest : ∀ i < pages.length, pageAddress base (index + 1 + i) ≠ address := fun i hi => by
      rw [Nat.add_assoc, Nat.add_comm 1]
      exact h (i + 1) (Nat.succ_lt_succ hi)
    refine (ih hrest).trans ?_
    simp [stored, Std.ExtTreeMap.getElem?_insert, hfirst]

/-- Each page is stored at its address. -/
theorem pages_pagesStored {base : UInt32} {pages : List Bytes} {index : Nat}
    (hfit : index + pages.length ≤ 2 ^ 26) {i : Nat} {data : Bytes}
    (hdata : pages[i]? = some data) :
    (sim.pagesStored base pages index).pages[pageAddress base (index + i)]? =
      some (pageContent (pageAddress base (index + i)) data) := by
  -- On the pages: the first is stored at once, and none of the others overwrites it.
  induction pages generalizing sim index i with
  | nil => cases hdata
  | cons first pages ih =>
    rw [List.length_cons] at hfit
    cases i with
    | zero =>
      have hothers : ∀ i < pages.length,
          pageAddress base (index + 1 + i) ≠ pageAddress base index := fun i hi h => by
        have := pageAddress_inj (by omega) (by omega) h
        omega
      obtain rfl : first = data := Option.some_inj.mp hdata
      refine (pages_pagesStored_of_ne hothers).trans ?_
      simp [stored]
    | succ i =>
      rw [Nat.add_comm i, ← Nat.add_assoc]
      exact ih (by omega) hdata

/-! ## The write -/

/-- The device after an image was written to its pages and booted. -/
def written (sim : Simulator) (base : UInt32) (image : Image) : Simulator :=
  { sim.pagesStored base (Bytes.blocks pageSize image.storableBytes) 0 with
    editMode := false }.reload

/-- Writing an image does not touch the usercode. -/
theorem usercode_written (sim : Simulator) (base : UInt32) (image : Image) :
    (sim.written base image).usercode = sim.usercode :=
  read_pagesStored sim usercode (fun _ _ _ => rfl) base _ 0

/-- What follows the pages closes the gate and boots from what is stored. -/
theorem ends_finishWrite (sim : Simulator) {limit : Nat} (hlimit : 0 < limit) :
    ∃ after, Ends filter (Host.finishWrite limit) sim
        (if (sim.execute .configDisable).reload.doneFinal then .ok ()
          else .error (.writeFailed .flash)) after ∧
      Watched (sim.execute .configDisable).reload after := by
  obtain ⟨closed, hclose, hclosed⟩ := ends_disableConfig filter sim hlimit
  obtain ⟨noted, hnote, hnoted⟩ := ends_logStatus filter closed "after write flash"
  obtain ⟨booted, hboot, hbooted, -⟩ := ends_reload filter noted
  -- Between the reload and the last look, only the status is read and time goes by, and neither
  -- decides whether a design has booted.
  have hbooted : Watched (sim.execute .configDisable).reload booted :=
    ((hclosed.trans hnoted).execute .reload).trans hbooted.watched
  obtain ⟨shown, hshow, hshown⟩ := ends_logStatus filter booted "after reload"
  have hslept : Traffic shown { shown with slept := shown.slept + (500 : UInt32).toNat } :=
    ⟨rfl, rfl, rfl⟩
  obtain ⟨flushed, hflush, hflushed⟩ := ends_logStatus filter
    { shown with slept := shown.slept + (500 : UInt32).toNat } "after flush"
  have hflushed := ((hbooted.trans hshown).trans hslept.watched).trans hflushed
  obtain ⟨read, hread, htraffic⟩ := ends_readStatus filter flushed
  refine ⟨read, hclose.tryCatch.bind (hnote.bind (hboot.bind (hshow.bind ((ends_flush ..).bind
    ((ends_sleep ..).bind (hflush.bind (hread.bind ?_))))))),
    (hflushed.trans (.of_readStatus _)).trans htraffic.watched⟩
  rw [has_readStatus _ StatusFlag.noConfusion]
  show Ends filter (if flushed.doneFinal = true then _ else _) _ _ _
  rw [hflushed.read doneFinal fun _ => rfl]
  cases (sim.execute .configDisable).reload.doneFinal with
  | true => exact ends_log ..
  | false => exact (ends_log ..).bind (ends_throw ..)

/-- A host that never looks at the status closes the gate and gives up. -/
theorem ends_finishWrite_of_blind (sim : Simulator) :
    ∃ after, Ends filter (Host.finishWrite 0) sim (.error .timeout) after ∧
      Watched (sim.execute .configDisable) after := by
  have hclose : Ends filter (Device.disableConfig 0) sim (.error .timeout)
      ((sim.took Instruction.configDisable.opcode).took Instruction.noop.opcode) :=
    (ends_send ..).bind ((ends_send ..).bind ((ends_log ..).bind (ends_throw ..)))
  exact ⟨_, (hclose.rethrow ..).bind_error, ((traffic_took sim .configDisable).took .noop).watched⟩

/-- The write succeeds exactly if the device finds a design to boot from. -/
theorem ends_writeFlash (profile : Profile) (hstuck : sim.config.stuckEditMode = false)
    {limit : Nat} (hlimit : 0 < limit) (hsettled : sim.Settled) (base : UInt32) (image : Image) :
    ∃ after, Ends filter (Device.EmbeddedFlash.write profile limit base image) sim
        (if (sim.written base image).doneFinal then .ok () else .error (.writeFailed .flash))
        after ∧ Watched (sim.written base image) after := by
  let pages := Bytes.blocks pageSize image.storableBytes
  obtain ⟨logged, hlog, hlogged⟩ := ends_logStatus filter sim "before write flash"
  have hconfig : logged.config = sim.config := hlogged.read config fun _ => rfl
  have hsettled' := hsettled.watched hlogged
  obtain ⟨filled, hfill, hfilled⟩ := ends_writePages filter (by rw [hconfig]; exact hstuck)
    (.inl hsettled'.unarmed) (Device.EmbeddedFlash.delays profile) base pages 0
  have hfilled : Watched (sim.pagesStored base pages 0) filled :=
    (hlogged.pagesStored base pages 0).trans hfilled.watched
  obtain ⟨after, hfinish, hfinished⟩ := ends_finishWrite filter filled hlimit
  have hbooted := (hfilled.execute .configDisable).execute .reload
  -- Storing pages leaves nothing pending, so closing the gate closes it and no more.
  have hstored : (sim.pagesStored base pages 0).Settled :=
    ⟨(read_pagesStored sim eraseArmed (fun _ _ _ => rfl) base pages 0).trans hsettled.unarmed,
      (read_pagesStored sim sramValid (fun _ _ _ => rfl) base pages 0).trans hsettled.unloaded⟩
  rw [hstored.configDisable] at hbooted
  have hbooted : Watched (sim.written base image) (filled.execute .configDisable).reload := hbooted
  rw [hbooted.read doneFinal fun _ => rfl] at hfinish
  exact ⟨after, (ends_log ..).bind (hlog.bind ((hfill.reporting ..).bind hfinish)),
    hbooted.trans hfinished⟩

end FpgaProgrammer.Simulator
