import FpgaProgrammer.Proofs.Instructions.Order

/-!
# Stages of writing

An image is written in stages: one for the SRAM, and one for each image that goes to the embedded
flash. Each stage closes with a look at the status.

`WrittenIn stages exchanges` says that the exchanges are those of the stages, one after the other,
that each stage was closed by a status that showed a running design, and that nothing was written
in between. A session that succeeds has written its image in this way (`writes_programSram`,
`writes_programEmbeddedFlash`).
-/

namespace FpgaProgrammer

variable {α β : Type}

/-- The last that was seen is a running design. -/
def SeenRunning : List Event → Prop :=
  After Anything (Event.Shows fun status => status.has .doneFinal = true) Nothing

/-! ## How a stage closes -/

/-- No instruction has to wait for anything. -/
def unordered : Order :=
  fun _ _ => True

theorem obeys_unordered (trace : Trace) (exchanges : List (Exchange Request Request.Answer)) :
    Obeys unordered trace exchanges := by
  induction exchanges generalizing trace with
  | nil => trivial
  | cons exchange exchanges ih => exact ⟨fun _ _ => trivial, ih _⟩

/-- What a sequence ends with does not depend on how it begins. -/
theorem Upholds.later {program : Host α} {next : α → Host β} {post : β → List Event → Prop}
    (h : ∀ value, Upholds unordered Anything (next value) post) :
    Upholds unordered Anything (program >>= next) post := by
  have hfirst : Upholds unordered Anything program fun _ => Anything :=
    fun exchanges _ _ trace _ => ⟨obeys_unordered trace exchanges, fun _ _ => trivial⟩
  exact hfirst.bind h

/-- A stage that ends in a check of the design succeeds only if the design was seen running. -/
theorem upholds_checkRunning {succeed fail : Host Unit}
    (hsucceed : ∀ pre, Upholds unordered pre succeed fun _ => pre)
    (hfail : ∀ post, Upholds unordered Anything fail post) :
    Upholds unordered Anything (do
      if (← Device.readStatus).has .doneFinal then
        succeed
      else
        fail) fun _ => SeenRunning := by
  refine (upholds_readStatus keptBy_anything fun _ _ => trivial).bind fun status => ?_
  split
  · rename_i hdone
    refine (hsucceed _).weaken (fun _ h => h) fun _ past h => ?_
    exact h.mono (fun _ h => h) (fun _ hevent => ⟨status, hevent, hdone⟩) fun _ h => h
  · exact (hfail _).weaken (fun _ _ => trivial) fun _ _ h => h

/-- What fails ensures anything of its success. -/
theorem upholds_fail (text : String) (error : Error) (post : Unit → List Event → Prop) :
    Upholds unordered Anything (do
      Host.log .error text
      throw error : Host Unit) post :=
  (upholds_log _ _).bind fun _ => .throw _

/-- A load of the SRAM that succeeds has just seen the design run. -/
theorem upholds_loadSram_running (image : Image) :
    Upholds unordered Anything (Device.Sram.load image) fun _ => SeenRunning := by
  have hcheck := upholds_checkRunning (fun _ => upholds_log .info "Load SRAM: DONE")
    (upholds_fail "Load SRAM: FAIL" (.writeFailed .sram))
  refine .later fun _ => .later fun _ => .later fun _ => .later fun _ => .later fun _ => ?_
  refine .later fun _ => .later fun _ => .later fun _ => .later fun _ => .later fun _ => ?_
  exact .later fun _ => .later fun _ => hcheck

/-- A write of the embedded flash that succeeds has just seen the design run. -/
theorem upholds_writeFlash_running (profile : Profile) (limit : Nat) (base : UInt32)
    (image : Image) :
    Upholds unordered Anything (Device.EmbeddedFlash.write profile limit base image)
      fun _ => SeenRunning := by
  have hcheck := upholds_checkRunning (fun _ => upholds_log .info "Write FLASH: DONE")
    (upholds_fail "Write FLASH: FAIL" (.writeFailed .flash))
  refine .later fun _ => .later fun _ => .later fun _ => .later fun _ => .later fun _ => ?_
  exact .later fun _ => .later fun _ => .later fun _ => .later fun _ => .later fun _ => hcheck

/-! ## Stages within a run -/

/-- None of the exchanges sends an instruction that writes the SRAM or the embedded flash. -/
def WritesNothing (exchanges : List (Exchange Request Request.Answer)) : Prop :=
  ∀ exchange ∈ exchanges, exchange.1.instruction? ≠ some .transferWrite ∧
    exchange.1.instruction? ≠ some .flashProgram

/-- The exchanges are those of the stages, in order, each of which succeeded and was closed by a
status that showed a running design. Outside of the stages nothing is written. -/
inductive WrittenIn : (stages : List (Host Unit)) →
    (exchanges : List (Exchange Request Request.Answer)) → Prop where
  /-- What follows the last stage. -/
  | rest {exchanges : List (Exchange Request Request.Answer)} (h : WritesNothing exchanges) :
      WrittenIn [] exchanges
  /-- A stage, and what comes before it. -/
  | stage {stage : Host Unit} {stages : List (Host Unit)}
      {before during after : List (Exchange Request Request.Answer)}
      (hbefore : WritesNothing before) (hruns : Host.Runs stage during (.ok ()))
      (hclosed : SeenRunning (({} : Trace).extend during).events)
      (hafter : WrittenIn stages after) :
      WrittenIn (stage :: stages) (before ++ during ++ after)

theorem writesNothing_nil : WritesNothing [] := by
  simp [WritesNothing]

theorem WritesNothing.append {first second : List (Exchange Request Request.Answer)}
    (h : WritesNothing first) (h' : WritesNothing second) : WritesNothing (first ++ second) := by
  intro exchange hmem
  rcases List.mem_append.mp hmem with hmem | hmem
  · exact h exchange hmem
  · exact h' exchange hmem

/-- The stages of a sequence are those of its first part, and then those of its second. -/
theorem WrittenIn.append {stages stages' : List (Host Unit)}
    {first second : List (Exchange Request Request.Answer)} (h : WrittenIn stages first)
    (h' : WrittenIn stages' second) : WrittenIn (stages ++ stages') (first ++ second) := by
  induction h with
  | rest hfirst =>
    -- What follows the last stage comes before the first stage of the second part.
    cases h' with
    | rest hsecond => exact .rest (hfirst.append hsecond)
    | stage hbefore hruns hclosed hafter =>
      rw [← List.append_assoc, ← List.append_assoc]
      exact .stage (hfirst.append hbefore) hruns hclosed hafter
  | stage hbefore hruns hclosed _ ih =>
    rw [List.append_assoc]
    exact .stage hbefore hruns hclosed ih

/-! ## Programs that write in stages -/

namespace Host

/-- A run of the program that succeeds has written in these stages. -/
def Writes (stages : List (Host Unit)) (program : Host α) : Prop :=
  ∀ ⦃exchanges value⦄, Runs program exchanges (.ok value) → WrittenIn stages exchanges

variable {stages stages' : List (Host Unit)}

/-- A sequence that succeeds has written in the stages of both parts. -/
theorem Writes.bind {program : Host α} {next : α → Host β} (h : Writes stages program)
    (hnext : ∀ value, Writes stages' (next value)) :
    Writes (stages ++ stages') (program >>= next) := by
  intro exchanges value hruns
  obtain ⟨middle, first, second, rfl, hfirst, hsecond⟩ := hruns.of_bind
  exact (h hfirst).append (hnext middle hsecond)

theorem writes_pure (value : α) : Writes [] (pure value : Host α) := by
  intro exchanges result hruns
  obtain ⟨rfl, -⟩ := runs_pure_iff.mp hruns
  exact .rest writesNothing_nil

/-- A program that cannot succeed may be said to write in any stages. -/
theorem writes_throw (error : Error) : Writes stages (throw error : Host α) := by
  intro exchanges value hruns
  cases (runs_throw_iff.mp hruns).2

/-- What comes before the stages sends no instruction that writes. -/
theorem Writes.after {allowed : List Instruction} {program : Host α} {next : α → Host β}
    (hsends : Sends allowed program) (hfree : .transferWrite ∉ allowed ∧ .flashProgram ∉ allowed)
    (hnext : ∀ value, Writes stages (next value)) : Writes stages (program >>= next) := by
  have hnothing : Writes [] program := by
    intro exchanges value hruns
    refine .rest fun exchange hmem => ⟨fun hsent => ?_, fun hsent => ?_⟩
    · exact hfree.1 (hsends hruns exchange hmem _ hsent)
    · exact hfree.2 (hsends hruns exchange hmem _ hsent)
  exact hnothing.bind hnext

/-- What sends nothing may come before a stage. -/
theorem Writes.after_silent {program : Host α} {next : α → Host β} (hsends : Sends [] program)
    (hnext : ∀ value, Writes stages (next value)) : Writes stages (program >>= next) :=
  .after hsends (by simp) hnext

/-- A program that ends with a look at a running design is a stage of its own. -/
theorem writes_stage {stage : Host Unit}
    (h : Upholds unordered Anything stage fun _ => SeenRunning) : Writes [stage] stage := by
  intro exchanges value hruns
  have hclosed := (h hruns {} trivial).2 value rfl
  have hwritten : WrittenIn [stage] ([] ++ exchanges ++ []) :=
    .stage writesNothing_nil hruns hclosed (.rest writesNothing_nil)
  rwa [List.nil_append, List.append_nil] at hwritten

end Host

/-! ## Sessions -/

namespace Session

/-- The stages in which a session writes an image to a memory of the device. -/
def writeStages (session : Session) (image : Image) : List (Host Unit) :=
  let writeFlash := Device.EmbeddedFlash.write session.profile session.limit
  match session.job.target with
  | .sram => [Device.Sram.load image]
  | .flash => writeFlash 0 image :: (session.job.firmware?.map (writeFlash firmwareAddress)).toList

/-- What a session that wrote to a memory does in the end writes nothing. -/
theorem writes_close (session : Session) (image : Image) (occasion : String) :
    Host.Writes [] (do
      let check ← session.verifyUsercode image
      Device.logStatus occasion
      pure check) := by
  refine .after (Host.sends_verifyUsercode _ _) (by decide) fun check => ?_
  exact .after (Host.sends_logStatus _) (by decide) fun _ => Host.writes_pure check

/-- A session that loads the SRAM writes in one stage. -/
theorem writes_programSram (session : Session) (image : Image) :
    Host.Writes [Device.Sram.load image] (session.programSram image) := by
  unfold Session.programSram
  extract_lets load
  have hload : ∀ _u : Unit, Host.Writes [Device.Sram.load image] (load _u) := by
    intro _
    refine .after (Host.sends_eraseSram _) (by decide) fun _ => ?_
    exact (Host.writes_stage (upholds_loadSram_running image)).bind fun _ => writes_close ..
  refine .after (Host.sends_logStatus _) (by decide) fun _ => ?_
  split
  · refine .after Host.sends_reload (by decide) fun _ => ?_
    exact .after_silent (Host.sends_setState _) fun _ =>
      .after_silent (Host.sends_toggleClock _) hload
  · exact hload ()

/-- A session that rewrites the embedded flash writes the image in one stage, and the firmware in
another if there is some. -/
theorem writes_programEmbeddedFlash {session : Session} (htarget : session.job.target = .flash)
    (image : Image) :
    Host.Writes (session.writeStages image) (session.programEmbeddedFlash image) := by
  let writeFlash := Device.EmbeddedFlash.write session.profile session.limit
  have hstages : session.writeStages image = writeFlash 0 image ::
      (session.job.firmware?.map (writeFlash firmwareAddress)).toList := by
    unfold writeStages
    rw [htarget]
  have hwrite : ∀ base image, Host.Writes [writeFlash base image] (writeFlash base image) :=
    fun base image => Host.writes_stage (upholds_writeFlash_running _ _ base image)
  rw [hstages]
  unfold Session.programEmbeddedFlash
  refine .after_silent (Host.sends_setClockFrequency _) fun _ => ?_
  refine .after (Host.sends_send _) (by decide) fun _ => ?_
  refine .after (Host.sends_sendOpcode _) (by decide) fun _ => ?_
  refine .after_silent (Host.sends_setState _) fun _ => ?_
  refine .after Host.sends_readStatus (by decide) fun status => ?_
  -- Nothing before the erase writes. The branches that follow share what they end with.
  extract_lets close warn work
  have hwarn : ∀ u, Host.Writes [] (warn u) := by
    intro u
    show Host.Writes [] (ite _ _ _)
    split
    · exact .after_silent (Host.sends_log _ _) fun _ => writes_close ..
    · exact writes_close ..
  have hwork : ∀ u, Host.Writes (writeFlash 0 image ::
      (session.job.firmware?.map (writeFlash firmwareAddress)).toList) (work u) := by
    intro u
    refine .after (Host.sends_eraseFlash _ _) (by decide) fun _ => ?_
    refine (hwrite 0 image).bind fun _ => ?_
    cases session.job.firmware? with
    | none => exact hwarn ()
    | some firmware => exact (hwrite firmwareAddress firmware).bind hwarn
  split
  · exact .after_silent (Host.sends_log _ _) fun _ =>
      .after (Host.sends_logStatus _) (by decide) fun _ =>
        .after_silent (Host.sends_throw _) hwork
  · exact hwork ()

/-- A session that succeeds in writing a memory of the device has written its image in stages. -/
theorem writes_program {session : Session} {image : Image}
    (himage : session.job.image? = some image)
    (hinternal : session.job.target = .flash → session.usesExternalFlash = false)
    (offset : UInt32) : Host.Writes (session.writeStages image) (session.program offset) := by
  unfold Session.program
  rw [himage]
  cases htarget : session.job.target with
  | sram =>
    have hstages : session.writeStages image = [Device.Sram.load image] := by
      unfold writeStages
      rw [htarget]
    rw [hstages]
    exact writes_programSram session image
  | flash =>
    simp only [hinternal htarget]
    split
    · exact .after_silent (Host.sends_log _ _) fun _ => Host.writes_throw _
    · exact writes_programEmbeddedFlash htarget image

end Session

end FpgaProgrammer
