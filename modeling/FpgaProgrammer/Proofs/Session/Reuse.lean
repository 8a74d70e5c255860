import FpgaProgrammer.Proofs.Failures.FailStop
import FpgaProgrammer.Session.InPlace
import FpgaProgrammer.Simulator.Step

/-!
# A session can be used again

What is taken out of a session while it is programmed in place is put back on every path, so that
the session can be used again whatever came of it.

* `InPlace.WorksAs work session program after`: the work asks and returns what the program does, and
  leaves the session `after`, be it by a success or a failure. The rules follow the programs; what
  is taken out of a slot (`worksAs_take`) is put back by `WorksAs.restoring`.
* `InPlace.worksAs_program`: to program a session in place is to program it as a value.
* `InPlace.programAll_session`: what is left of a session after any number of calls.
* `InPlace.program_again`: the call after them is a call on the session from before them.
-/

namespace FpgaProgrammer

namespace Slot

variable {α : Type} (slot : Slot α) {session : Session}

/-- Taking nothing out of a slot changes nothing. -/
theorem fill_none (h : slot.content? session = none) : slot.fill session none = session := by
  rw [← h, slot.fill_content?]

/-- What was taken out of a slot and put back is in the session again. -/
theorem fill_none_some {content : α} (h : slot.content? session = some content) :
    slot.fill (slot.fill session none) (some content) = session := by
  rw [slot.fill_fill, ← h, slot.fill_content?]

end Slot

namespace InPlace

variable {σ α β : Type} {work : InPlace α} {program : Host α} {session after : Session}

/-- On the session, the work asks and returns what the program does, and leaves the session
`after`, whether it succeeds or fails. -/
def WorksAs (work : InPlace α) (session : Session) (program : Host α) (after : Session) : Prop :=
  StateT.run (ExceptT.run work) session = (fun ending => (ending, after)) <$> ExceptT.run program

/-- What the host does beside the session leaves it as it is. -/
theorem worksAs_host (program : Host α) (session : Session) :
    WorksAs (monadLift program) session program session := by
  simp [WorksAs, monadLift, MonadLift.monadLift]

theorem worksAs_pure (value : α) (session : Session) :
    WorksAs (pure value) session (pure value) session := by
  simp [WorksAs]

theorem worksAs_throw (error : Error) (session : Session) :
    WorksAs (throw error : InPlace α) session (throw error) session := by
  simp [WorksAs]

/-- Both parts of a sequence have to leave the session as the first one does, since a failure of the
first is followed by nothing. -/
theorem WorksAs.bind {next : α → InPlace β} {next' : α → Host β}
    (h : WorksAs work session program after)
    (hnext : ∀ value, WorksAs (next value) after (next' value) after) :
    WorksAs (work >>= next) session (program >>= next') after := by
  unfold WorksAs at *
  simp only [ExceptT.run_bind, StateT.run_bind, h, map_bind, bind_map_left]
  congr 1
  funext ending
  -- A failure skips what follows, so that the session stays as the first part has left it.
  cases ending with
  | ok value => exact hnext value
  | error error => simp

theorem WorksAs.ite {condition : Prop} [Decidable condition] {work' : InPlace α}
    {program' : Host α} (h : WorksAs work session program after)
    (h' : WorksAs work' session program' after) :
    WorksAs (if condition then work else work') session (if condition then program else program')
      after := by
  split
  · exact h
  · exact h'

theorem worksAs_get {next : Session → InPlace α}
    (h : WorksAs (next session) session program after) :
    WorksAs (get >>= next) session program after :=
  h

/-- After something was taken out of a slot, the work goes on with it on a session whose slot is
empty. -/
theorem worksAs_take {slot : Slot β} {next : Option β → InPlace α}
    (h : WorksAs (next (slot.content? session)) (slot.fill session none) program after) :
    WorksAs (take slot >>= next) session program after :=
  h

/-- Whatever comes of the work, the content is put back into its slot. -/
theorem WorksAs.restoring (h : WorksAs work session program after) (slot : Slot β) (content : β) :
    WorksAs (InPlace.restoring slot content work) session program
      (slot.fill after (some content)) := by
  have hrun : StateT.run (ExceptT.run (InPlace.restoring slot content work)) session =
      StateT.run (ExceptT.run work) session >>= fun (ending, after) =>
        pure (ending, slot.fill after (some content)) := by
    simp only [InPlace.restoring, ExceptT.run_bind, ExceptT.run_lift, StateT.run_bind,
      bind_map_left]
    rfl
  rw [WorksAs, hrun, h]
  simp

/-- The firmware is in the session again after it was written, and after it was not. -/
theorem worksAs_programEmbeddedFlash (session : Session) (image : Image) :
    WorksAs (programEmbeddedFlash image) session (session.programEmbeddedFlash image) session := by
  unfold programEmbeddedFlash Session.programEmbeddedFlash
  refine worksAs_get ?_
  refine (worksAs_host _ _).bind fun _ => (worksAs_host _ _).bind fun _ => ?_
  refine (worksAs_host _ _).bind fun _ => (worksAs_host _ _).bind fun _ => ?_
  refine (worksAs_host _ _).bind fun status => ?_
  -- What follows a condition is one program, and is looked at once for both of its sides.
  extract_lets finish warn write finish' warn' write'
  have hfinish : ∀ u, WorksAs (finish u) session (finish' u) session := fun _ =>
    (worksAs_host _ _).bind fun _ => (worksAs_host _ _).bind fun _ => worksAs_pure _ _
  have hwarn : ∀ u, WorksAs (warn u) session (warn' u) session := fun _ =>
    .ite ((worksAs_host _ _).bind hfinish) (hfinish ())
  have hwrite : ∀ u, WorksAs (write u) session (write' u) session := by
    intro _
    refine (worksAs_host _ _).bind fun _ => (worksAs_host _ _).bind fun _ => worksAs_take ?_
    cases hfirmware : session.job.firmware? with
    | none =>
      rw [show Slot.firmware.content? session = none from hfirmware,
        Slot.firmware.fill_none hfirmware]
      exact hwarn ()
    | some firmware =>
      rw [show Slot.firmware.content? session = some firmware from hfirmware]
      refine .bind ?_ hwarn
      have hback := (worksAs_host (Device.EmbeddedFlash.write session.profile session.limit
        Session.firmwareAddress firmware) (Slot.firmware.fill session none)).restoring
          .firmware firmware
      rwa [Slot.firmware.fill_none_some hfirmware] at hback
  refine .ite ?_ (hwrite ())
  exact (worksAs_host _ _).bind fun _ => (worksAs_host _ _).bind fun _ =>
    (worksAs_throw _ _).bind hwrite

/-- The driver is in the session again after it was used, however its use has ended. -/
theorem worksAs_programExternalFlash (used : ChipDriver → ChipDriver) (offset : UInt32)
    (session : Session) (image : Image) :
    WorksAs (programExternalFlash used offset image) session
      (match session.job.chipDriver? with
        | none => throw .noChipDriver
        | some driver => do
          session.programExternalFlash driver offset image
          pure .skipped)
      (Slot.chipDriver.fill session (session.job.chipDriver?.map used)) := by
  refine worksAs_take ?_
  cases hdriver : session.job.chipDriver? with
  | none =>
    rw [show Slot.chipDriver.content? session = none from hdriver]
    exact worksAs_throw _ _
  | some driver =>
    rw [show Slot.chipDriver.content? session = some driver from hdriver]
    have hwork : WorksAs (do
          let session ← get
          session.programExternalFlash driver offset image)
        (Slot.chipDriver.fill session none) (session.programExternalFlash driver offset image)
        (Slot.chipDriver.fill session none) := worksAs_get (worksAs_host _ _)
    exact .bind (hwork.restoring .chipDriver (used driver)) fun _ => worksAs_pure _ _

/-- Whatever the memory, the driver is all that can have changed. -/
theorem worksAs_programImage (used : ChipDriver → ChipDriver) (offset : UInt32) (session : Session)
    (image : Image) :
    ∃ driver?, (driver? = session.job.chipDriver? ∨ driver? = session.job.chipDriver?.map used) ∧
      WorksAs (programImage used offset image) session
        ((Slot.image.fill session (some image)).program offset)
        (Slot.chipDriver.fill session driver?) := by
  have hkept : Slot.chipDriver.fill session session.job.chipDriver? = session := rfl
  unfold programImage Session.program
  -- The cases are those of the program itself; in one of them alone the driver is used.
  cases htarget : session.job.target with
  | sram =>
    refine ⟨_, .inl rfl, worksAs_get ?_⟩
    simp only [hkept, htarget, Slot.image]
    exact worksAs_host _ _
  | flash =>
    cases hrefused : session.profile.withoutFlashWrite with
    | true =>
      refine ⟨_, .inl rfl, worksAs_get ?_⟩
      simp only [hkept, htarget, hrefused, Slot.image]
      exact (worksAs_host _ _).bind fun _ => worksAs_throw _ _
    | false =>
      cases hexternal : session.usesExternalFlash with
      | true =>
        refine ⟨_, .inr rfl, worksAs_get ?_⟩
        simp only [htarget, hrefused, hexternal, Slot.image]
        exact worksAs_programExternalFlash used offset session image
      | false =>
        refine ⟨_, .inl rfl, worksAs_get ?_⟩
        simp only [hkept, htarget, hrefused, hexternal, Slot.image]
        exact worksAs_programEmbeddedFlash session image

/-- Working in place is working with the session as a value. Afterwards the session is the one from
before, but for what has become of a chip driver that was used. -/
theorem worksAs_program (used : ChipDriver → ChipDriver) (offset : UInt32) (session : Session) :
    ∃ driver?, (driver? = session.job.chipDriver? ∨ driver? = session.job.chipDriver?.map used) ∧
      WorksAs (InPlace.program used offset) session (session.program offset)
        (Slot.chipDriver.fill session driver?) := by
  cases himage : session.job.image? with
  | none =>
    refine ⟨_, .inl rfl, worksAs_take ?_⟩
    rw [show Slot.image.content? session = none from himage, Slot.image.fill_none himage,
      Session.program, himage]
    exact worksAs_pure _ _
  | some image =>
    obtain ⟨driver?, hdriver, hwork⟩ :=
      worksAs_programImage used offset (Slot.image.fill session none) image
    refine ⟨driver?, hdriver, worksAs_take ?_⟩
    -- The image and the driver are put back in either order.
    have hback : WorksAs (restoring .image image (programImage used offset image))
        (Slot.image.fill session none)
        ((Slot.image.fill (Slot.image.fill session none) (some image)).program offset)
        (Slot.chipDriver.fill (Slot.image.fill (Slot.image.fill session none) (some image))
          driver?) :=
      hwork.restoring .image image
    rw [Slot.image.fill_none_some himage] at hback
    rw [show Slot.image.content? session = some image from himage]
    exact hback

/-! ## Over a cable -/

/-- Over every cable, the work comes to what the program comes to. -/
theorem WorksAs.run_eq (h : WorksAs work session program after) (cable : Cable σ)
    (filter : LogFilter) (device : σ) :
    run cable filter work session device = (Host.run cable filter program device, after) := by
  rw [run, h, ← bind_pure_comp, Dialogue.run_bind]
  rfl

/-- Programming a session time and again leaves nothing changed but the chip driver, and that only
by its own use. -/
theorem programAll_session (cable : Cable σ) (filter : LogFilter) (calls : List ProgramCall)
    (session : Session) (device : σ) :
    ∃ driver?, driver?.isSome = session.job.chipDriver?.isSome ∧
      ((∀ call ∈ calls, call.used = id) → driver? = session.job.chipDriver?) ∧
      (programAll cable filter calls session device).1 = Slot.chipDriver.fill session driver? := by
  induction calls generalizing session device with
  | nil => exact ⟨_, rfl, fun _ => rfl, rfl⟩
  | cons call calls ih =>
    obtain ⟨driver?, hdriver, hwork⟩ := worksAs_program call.used call.offset session
    obtain ⟨last?, hlast, hsame, hrest⟩ := ih (Slot.chipDriver.fill session driver?)
      (Host.run cable filter (session.program call.offset) device).device
    rw [programAll, hwork.run_eq]
    refine ⟨last?, hlast.trans ?_, fun hid => ?_, hrest⟩
    · rcases hdriver with rfl | rfl
      · rfl
      · exact Option.isSome_map
    · rw [List.forall_mem_cons] at hid
      -- If no use changes the driver, neither the first nor a later one did.
      rw [hsame hid.2]
      rcases hdriver with rfl | rfl
      · rfl
      · rw [hid.1, Option.map_id]
        rfl

/-- However often a session was programmed before, and whatever came of it: it is the session that
it has been, with its chip driver in place, and to program it again is to program that session. -/
theorem program_again (cable : Cable σ) (filter : LogFilter) (earlier : List ProgramCall)
    (session : Session) (device : σ) (used : ChipDriver → ChipDriver) (offset : UInt32) :
    let reached := programAll cable filter earlier session device
    ∃ driver?, driver?.isSome = session.job.chipDriver?.isSome ∧
      ((∀ call ∈ earlier, call.used = id) → driver? = session.job.chipDriver?) ∧
      reached.1 = { session with job.chipDriver? := driver? } ∧
      (run cable filter (InPlace.program used offset) reached.1 reached.2).1 =
        Host.run cable filter
          ({ session with job.chipDriver? := driver? : Session }.program offset) reached.2 := by
  intro reached
  obtain ⟨driver?, hpresent, hsame, hreached⟩ :=
    programAll_session cable filter earlier session device
  refine ⟨driver?, hpresent, hsame, hreached, ?_⟩
  obtain ⟨_, -, hwork⟩ := worksAs_program used offset reached.1
  rw [hwork.run_eq, hreached]
  rfl

/-- A call that the cable makes fail, and a second one that loads the image. -/
theorem program_again_after_failure :
    let session := Session.ofJob 0x0900281B
      { target := .sram, image? := some (Bitstream.ofData [1, 2, 3]).toImage }
    let cable := Simulator.cable.failingOnce .transport
    let first := run cable none (InPlace.program id 0) session (.powerUp {}, 20)
    let second := run cable none (InPlace.program id 0) first.2 first.1.device
    failure? first.1.result = some .transport ∧ first.2 = session ∧
      second.1.result.toOption = some .agrees := by
  intro session cable first second
  obtain ⟨driver?, -, hsame, hreached, hsecond⟩ :=
    program_again cable none [⟨0, id⟩] session (.powerUp {}, 20) id 0
  have hsession : first.2 = session := by
    rw [show first.2 = _ from hreached, hsame (by simp)]
  refine ⟨by decide +kernel, hsession, ?_⟩
  rw [show second.1 = _ from hsecond, hsame (by simp)]
  decide +kernel

end InPlace

end FpgaProgrammer
