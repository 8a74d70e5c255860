import FpgaProgrammer.Proofs.Bytes.Blocks
import FpgaProgrammer.Proofs.Calls.SramStream
import FpgaProgrammer.Proofs.Failures.Operations
import FpgaProgrammer.Proofs.Progress.Quiet

/-!
# Blocks of reports

A stage that is reported on leaves a block of reports. What it says is true of what was exchanged in
between: how much was done, and whether the stage succeeded.

* `Block.WellFormed` — what holds of a block by itself.
* `Block.Covers` — what holds of a block and the exchanges between its start and its finish.
* `Host.CountsUp` — the stages that report what is done so far of a total.
* `Host.Tries` — the attempts to erase the flash, which are reported on one by one.
* `reported_stream`, `reported_writePages`, `reported_tryErase` — the three stages.
-/

namespace FpgaProgrammer

/-- All the reports on a stage. -/
structure Block where
  /-- The stage. -/
  stage : Stage
  /-- What there is to be done. -/
  total : Nat
  /-- What was done at each advance. -/
  advances : List Nat
  /-- The stage is said to have succeeded. -/
  ok : Bool
  deriving Repr, DecidableEq

namespace Block

/-- The reports, one after the other. -/
def reports (block : Block) : List Progress :=
  .start block.stage block.total :: (block.advances.map .advance ++ [.finish block.ok])

/-- What was done at the last advance. -/
def last (block : Block) : Nat :=
  block.advances.getLastD 0

/-- A block that makes sense by itself. -/
structure WellFormed (block : Block) : Prop where
  /-- Every advance is one. -/
  increasing : block.advances.Pairwise (· < ·)
  /-- No advance goes beyond the total. -/
  bounded : ∀ amount ∈ block.advances, 0 < amount ∧ amount ≤ block.total
  /-- What is counted succeeds if, and only if, all of it was done. -/
  counted : block.stage ≠ .eraseFlash → (block.ok = true ↔ block.last = block.total)
  /-- Attempts are counted one by one, as far as they go. -/
  attempted : block.stage = .eraseFlash →
    block.total = 100 ∧ ∃ made ≤ 100, block.advances = List.range' 1 made

end Block

namespace Host

open Device

variable {α : Type} {exchanges : List (Exchange Request Request.Answer)}

/-! ## Counting -/

/-- `Counts total done advances ok`: with `done` out of `total` done, these are the advances that
follow, and `ok` says whether they come to the end. -/
inductive Counts (total : Nat) : (done : Nat) → (advances : List Nat) → (ok : Bool) → Prop where
  /-- Everything is done. -/
  | finished : Counts total total [] true
  /-- What is left is given up. -/
  | failed {done : Nat} (h : done < total) : Counts total done [] false
  /-- More is done. -/
  | advance {done amount : Nat} {advances : List Nat} {ok : Bool} (h : done < amount)
      (rest : Counts total amount advances ok) : Counts total done (amount :: advances) ok

namespace Counts

variable {total done : Nat} {advances : List Nat} {ok : Bool}

/-- No more is done than there is to do. -/
theorem le (h : Counts total done advances ok) : done ≤ total := by
  induction h with
  | finished => exact Nat.le_refl _
  | failed h => exact Nat.le_of_lt h
  | advance h rest ih => omega

/-- Every advance goes beyond what was done, and not beyond the total. -/
theorem bounded (h : Counts total done advances ok) :
    ∀ amount ∈ advances, done < amount ∧ amount ≤ total := by
  induction h with
  | finished | failed => simp
  | advance h rest ih =>
    refine List.forall_mem_cons.mpr ⟨⟨h, rest.le⟩, fun amount hmem => ?_⟩
    exact ⟨h.trans (ih amount hmem).1, (ih amount hmem).2⟩

/-- Every advance goes beyond the one before. -/
theorem increasing (h : Counts total done advances ok) : advances.Pairwise (· < ·) := by
  induction h with
  | finished | failed => exact .nil
  | advance h rest ih => exact .cons (fun amount hmem => (rest.bounded amount hmem).1) ih

/-- What was counted succeeded exactly if the last advance came to the total. -/
theorem ok_iff (h : Counts total done advances ok) :
    ok = true ↔ advances.getLastD done = total := by
  induction h with
  | finished => simp
  | failed h => simpa using Nat.ne_of_lt h
  | advance h rest ih => rwa [List.getLastD_cons]

/-- What counts from the start is a block. -/
theorem wellFormed {stage : Stage} (h : Counts total 0 advances ok) (hstage : stage ≠ .eraseFlash) :
    Block.WellFormed ⟨stage, total, advances, ok⟩ where
  increasing := h.increasing
  bounded := h.bounded
  counted _ := h.ok_iff
  attempted herase := absurd herase hstage

end Counts

/-- Every run of the program counts from `done` up to `total`, unless it fails on the way. -/
def CountsUp (total done : Nat) (program : Host Unit) : Prop :=
  ∀ ⦃exchanges result⦄, Runs program exchanges result →
    ∃ advances, reportsOf exchanges = advances.map .advance ∧
      Counts total done advances result.isOk

theorem countsUp_pure (total : Nat) : CountsUp total total (pure ()) := by
  intro exchanges result hruns
  obtain ⟨rfl, rfl⟩ := runs_pure_iff.mp hruns
  exact ⟨[], rfl, .finished⟩

/-- A step is taken in silence, and then it is reported how far it has led. -/
theorem CountsUp.step {step : Host α} {rest : Host Unit} {total done amount : Nat}
    (hquiet : Quiet step) (hmore : done < amount) (hle : amount ≤ total)
    (h : CountsUp total amount rest) :
    CountsUp total done (step >>= fun _ => progress (.advance amount) >>= fun _ => rest) := by
  intro exchanges result hruns
  rcases runs_bind_iff.mp hruns with ⟨_, before, _, rfl, hstep, hruns⟩ | ⟨error, rfl, hstep⟩
  · obtain ⟨_, after, rfl, hrest⟩ := hruns.of_ask_bind
    obtain ⟨advances, hreports, hcounts⟩ := h hrest
    refine ⟨amount :: advances, ?_, .advance hmore hcounts⟩
    rw [reportsOf_append, hquiet.reportsOf_eq_nil hstep]
    exact congrArg (.advance amount :: ·) hreports
  · exact ⟨[], hquiet.reportsOf_eq_nil hstep, .failed (hmore.trans_le hle)⟩

/-- The bits of an image are counted by the scans that load them. -/
theorem countsUp_stream {sizes : List Nat} (hpos : ∀ bits ∈ sizes, 0 < bits) {sent total : Nat}
    (htotal : sent + sizes.sum = total) (data : Bytes) :
    CountsUp total sent (Sram.stream sizes sent data) := by
  induction sizes generalizing sent data with
  | nil =>
    obtain rfl : sent = total := by simpa using htotal
    exact countsUp_pure sent
  | cons bits sizes ih =>
    obtain ⟨hbits, hpos⟩ := List.forall_mem_cons.mp hpos
    rw [List.sum_cons] at htotal
    exact CountsUp.step (closed_quiet.shiftDr _) (by omega) (by omega) (ih hpos (by omega) _)

/-- The bytes of an image are counted by the pages that they are written to. -/
theorem countsUp_writePages {pages : List Bytes} (hne : ∀ page ∈ pages, page ≠ [])
    (hfull : ∀ page ∈ pages.dropLast, page.length = EmbeddedFlash.pageSize)
    (delays : EmbeddedFlash.Delays) (base : UInt32) {index done total : Nat}
    (hdone : pages ≠ [] → done = EmbeddedFlash.pageSize * index)
    (htotal : done + pages.flatten.length = total) :
    CountsUp total done (EmbeddedFlash.writePages delays base pages index) := by
  induction pages generalizing index done with
  | nil =>
    obtain rfl : done = total := by simpa using htotal
    exact countsUp_pure done
  | cons page pages ih =>
    obtain ⟨hpage, hne⟩ := List.forall_mem_cons.mp hne
    have hpos : 0 < page.length := List.length_pos_iff.mpr hpage
    obtain rfl := hdone (List.cons_ne_nil _ _)
    rw [List.flatten_cons, List.length_append] at htotal
    -- A page that is followed by another one is full.
    have hfull : pages ≠ [] → page.length = EmbeddedFlash.pageSize ∧
        ∀ other ∈ pages.dropLast, other.length = EmbeddedFlash.pageSize := by
      intro hmore
      rw [List.dropLast_cons_of_ne_nil hmore] at hfull
      exact List.forall_mem_cons.mp hfull
    refine CountsUp.step (quiet_writePage _ _ _) (by omega) (by omega) (ih hne ?_ ?_ (by omega))
    · intro other hmem
      exact (hfull (List.ne_nil_of_mem (List.dropLast_subset _ hmem))).2 other hmem
    · exact fun hmore => by rw [(hfull hmore).1, Nat.mul_succ]

/-! ## Attempts -/

/-- `Tries profile limit made exchanges endings`: after `made` attempts to erase the flash, the
exchanges are further attempts, which end as in `endings`. An attempt that fails is the last one.
Any other one is logged and reported on. -/
inductive Tries (profile : Profile) (limit : Nat) : (made : Nat) →
    (exchanges : List (Exchange Request Request.Answer)) →
    (endings : List (Except Error Status)) → Prop where
  /-- No attempt is made. -/
  | none (made : Nat) : Tries profile limit made [] []
  /-- An attempt fails. -/
  | failed {made : Nat} {attempt : List (Exchange Request Request.Answer)} {error : Error}
      (h : Runs (EmbeddedFlash.attemptErase profile limit) attempt (.error error)) :
      Tries profile limit made attempt [.error error]
  /-- An attempt is made, and others may follow. -/
  | made {made : Nat} {attempt exchanges : List (Exchange Request Request.Answer)} {status : Status}
      {endings : List (Except Error Status)} {text : String}
      (h : Runs (EmbeddedFlash.attemptErase profile limit) attempt (.ok status))
      (rest : Tries profile limit (made + 1) exchanges endings) :
      Tries profile limit made
        (attempt ++ (⟨.log .debug text, ()⟩ :: ⟨.progress (.advance (made + 1)), ()⟩ :: exchanges))
        (.ok status :: endings)

/-- What is reported on are the attempts that do not fail. -/
theorem Tries.reportsOf_eq {profile : Profile} {limit made : Nat}
    {endings : List (Except Error Status)} (h : Tries profile limit made exchanges endings) :
    reportsOf exchanges =
      (List.range' (made + 1) (endings.countP (·.isOk))).map .advance := by
  induction h with
  | none => rfl
  | failed h => exact (quiet_attemptErase _ _).reportsOf_eq_nil h
  | made h rest ih =>
    rw [reportsOf_append, (quiet_attemptErase _ _).reportsOf_eq_nil h, List.countP_cons_of_pos rfl,
      List.range'_succ]
    exact congrArg (_ :: ·) ih

/-- Trying to erase the flash is making attempts. It fails if one of them does. -/
theorem Runs.tries {profile : Profile} {limit left made : Nat} {result : Except Error Unit}
    (hruns : Runs (EmbeddedFlash.tryErase profile limit left made) exchanges result) :
    ∃ endings, Tries profile limit made exchanges endings ∧ endings.length ≤ left ∧
      (result.isOk = true ↔ ∀ ending ∈ endings, ending.isOk = true) := by
  induction left generalizing made exchanges with
  | zero =>
    obtain ⟨rfl, rfl⟩ := runs_pure_iff.mp hruns
    exact ⟨[], .none made, Nat.le_refl _, by simp [Except.isOk, Except.toBool]⟩
  | succ left ih =>
    rcases runs_bind_iff.mp hruns with ⟨status, attempt, _, rfl, hattempt, hlog⟩ | ⟨_, rfl, hfailed⟩
    · obtain ⟨⟨⟩, _, rfl, hreport⟩ := hlog.of_ask_bind
      obtain ⟨⟨⟩, rest, rfl, hrest⟩ := hreport.of_ask_bind
      -- If the flash is not erased yet, it is tried again.
      split at hrest
      · obtain ⟨endings, htries, hlength, hok⟩ := ih hrest
        exact ⟨.ok status :: endings, .made hattempt htries, Nat.succ_le_succ hlength,
          by simpa [Except.isOk, Except.toBool] using hok⟩
      · obtain ⟨rfl, rfl⟩ := runs_pure_iff.mp hrest
        exact ⟨[.ok status], .made hattempt (.none _), Nat.succ_le_succ (Nat.zero_le _),
          by simp [Except.isOk, Except.toBool]⟩
    · exact ⟨[.error _], .failed hfailed, Nat.succ_le_succ (Nat.zero_le _),
        by simp [Except.isOk, Except.toBool]⟩

end Host

/-! ## Stages -/

/-- What a block tells of the exchanges between its start and its finish, and of how they ended. -/
structure Block.Covers (block : Block) (within : List (Exchange Request Request.Answer))
    (ending : Except Error Unit) : Prop where
  /-- The block makes sense by itself. -/
  wellFormed : block.WellFormed
  /-- Nothing but the advances is reported in between. -/
  reports_eq : Host.reportsOf within = block.advances.map .advance
  /-- It says how the stage ended. -/
  ok_eq : block.ok = ending.isOk
  /-- A call that fails is what the stage ended with. -/
  fails : ∀ exchange ∈ within, ∀ error, Exchange.failure? exchange = some error →
    ending = .error error
  /-- The attempts to erase the flash are counted, and one that fails is not made up for. -/
  tries : block.stage = .eraseFlash → ∃ profile limit endings,
    Host.Tries profile limit 0 within endings ∧
      block.advances.length = endings.countP (·.isOk) ∧
      (block.ok = true ↔ ∀ ending ∈ endings, ending.isOk = true)

namespace Host

open Device

variable {exchanges : List (Exchange Request Request.Answer)} {body : Host Unit} {stage : Stage}
  {total : Nat}

/-- In every run, the program can be reported on as a stage. -/
def Reported (stage : Stage) (total : Nat) (body : Host Unit) : Prop :=
  ∀ ⦃within ending⦄, Runs body within ending →
    ∃ advances, Block.Covers ⟨stage, total, advances, ending.isOk⟩ within ending

/-- A program that stops at a failure ends with it. -/
theorem Stops.eq_error {program : Host Unit} {result : Except Error Unit} (h : Stops program)
    (hruns : Runs program exchanges result) :
    ∀ exchange ∈ exchanges, ∀ error, Exchange.failure? exchange = some error →
      result = .error error := by
  intro exchange hmem error hfailed
  obtain ⟨past, later, rfl⟩ := List.append_of_mem hmem
  have hending := ((h hruns).of_split hfailed).1
  cases result with
  | ok _ => cases hending
  | error error' => rw [Option.some.inj hending]

/-- A program that counts from nothing up to the total can be reported on, if it stops at a
failure. -/
theorem CountsUp.reported (h : CountsUp total 0 body) (hstops : Stops body)
    (hstage : stage ≠ .eraseFlash) : Reported stage total body := by
  intro within ending hruns
  obtain ⟨advances, hreports, hcounts⟩ := h hruns
  exact ⟨advances, hcounts.wellFormed hstage, hreports, rfl, hstops.eq_error hruns,
    fun herase => absurd herase hstage⟩

/-- The stream of a payload can be reported on as a load of that many bits. -/
theorem reported_stream (image : Image) :
    Reported .loadSram image.loadableBits
      (Sram.stream (Sram.chunkSizes image.loadableBits) 0 image.data) := by
  have hpos : ∀ bits ∈ Sram.chunkSizes image.loadableBits, 0 < bits := fun _ hmem =>
    (Sram.mem_chunkSizes hmem).1
  have htotal : 0 + (Sram.chunkSizes image.loadableBits).sum = image.loadableBits := by
    rw [Sram.sum_chunkSizes, Nat.zero_add]
  exact (countsUp_stream hpos htotal _).reported (stops_stream _ _ _) (by decide)

/-- Writing the pages of some data can be reported on as a write of that many bytes. -/
theorem reported_writePages (delays : EmbeddedFlash.Delays) (base : UInt32) (data : Bytes) :
    Reported .writeFlash data.length
      (EmbeddedFlash.writePages delays base (Bytes.blocks EmbeddedFlash.pageSize data) 0) := by
  have hsize : 0 < EmbeddedFlash.pageSize := by decide
  have htotal : 0 + (Bytes.blocks EmbeddedFlash.pageSize data).flatten.length = data.length := by
    rw [Bytes.flatten_blocks hsize, Nat.zero_add]
  have hcounts : CountsUp data.length 0
      (EmbeddedFlash.writePages delays base (Bytes.blocks EmbeddedFlash.pageSize data) 0) :=
    countsUp_writePages (fun _ => Bytes.ne_nil_of_mem_blocks hsize)
      (fun _ => Bytes.length_of_mem_dropLast_blocks hsize) delays base (fun _ => rfl) htotal
  exact hcounts.reported (stops_writePages _ _ _ _) (by decide)

/-- The attempts to erase the embedded flash can be reported on as a stage of a hundred. -/
theorem reported_tryErase (profile : Profile) (limit : Nat) :
    Reported .eraseFlash EmbeddedFlash.eraseAttempts
      (EmbeddedFlash.tryErase profile limit EmbeddedFlash.eraseAttempts 0) := by
  intro within ending hruns
  obtain ⟨endings, htries, hlength, hok⟩ := hruns.tries
  let made := endings.countP (·.isOk)
  have hmade : made ≤ EmbeddedFlash.eraseAttempts := List.countP_le_length.trans hlength
  refine ⟨List.range' 1 made, ⟨List.pairwise_lt_range' 1, fun amount hmem => ?_,
    fun hstage => absurd rfl hstage, fun _ => ⟨rfl, made, hmade, rfl⟩⟩, htries.reportsOf_eq, rfl,
    (stops_tryErase _ _ _ _).eq_error hruns,
    fun _ => ⟨profile, limit, endings, htries, List.length_range', hok⟩⟩
  rw [List.mem_range'_1] at hmem
  exact ⟨by omega, show amount ≤ EmbeddedFlash.eraseAttempts by omega⟩

end Host

end FpgaProgrammer
