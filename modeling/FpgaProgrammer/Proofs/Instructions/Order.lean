import FpgaProgrammer.Proofs.Instructions.Sent
import FpgaProgrammer.Proofs.Simulator.Status

/-!
# The order in which instructions are sent

`Trace` keeps what of a run matters for the order of instructions: which instructions were sent, and
what the status register showed when it was read. An order says of each instruction what must have
happened before it may be sent, and `Upholds order pre program post` that every run of `program`
obeys the order, whatever the cable answers and wherever it fails: if `pre` holds of the events so
far, nothing is sent out of order, and `post` holds if the program succeeds.

For the run itself this is `InOrder`: at every split of its exchanges, what has been seen so far
allows what is sent next.

What has happened is said with `After`. The rules follow the programs: `Upholds.bind` and
`Upholds.tryCatch` for sequences, `Upholds.keep` for programs that send nothing of interest, and
`Upholds.frame` for what a program does not touch.
-/

namespace FpgaProgrammer

/-! ## Traces -/

/-- What is seen of a run. -/
inductive Event where
  /-- An instruction was sent. The cable may have failed to take it. -/
  | sent (instruction : Instruction) (taken : Bool)
  /-- The status register was read, and showed this. -/
  | shown (status : Status)

/-- What was seen of a run so far. -/
structure Trace where
  /-- The instruction whose register a scan goes through, as far as the cable has taken it. -/
  selected? : Option Instruction := none
  /-- The events, in order. -/
  events : List Event := []

namespace Trace

/-- One more exchange. -/
def add (trace : Trace) : Exchange Request Request.Answer → Trace
  | ⟨.cable (.shiftIr data _), reply⟩ =>
    match Instruction.ofOpcode? (data.headD 0), (reply : Except Error Unit) with
    | none, _ => { trace with selected? := none }
    | some instruction, .ok _ =>
      { selected? := some instruction, events := trace.events ++ [.sent instruction true] }
    | some instruction, .error _ =>
      { selected? := none, events := trace.events ++ [.sent instruction false] }
  | ⟨.cable (.shiftDr scan), reply⟩ =>
    match trace.selected?, (reply : Except Error Bytes) with
    | some .readStatus, .ok captured =>
      { trace with events := trace.events ++ [.shown ⟨Bytes.wordLE (scan.receive captured)⟩] }
    | _, _ => trace
  | _ => trace

/-- More exchanges. -/
def extend (trace : Trace) (exchanges : List (Exchange Request Request.Answer)) : Trace :=
  exchanges.foldl add trace

theorem extend_append (trace : Trace) (first second : List (Exchange Request Request.Answer)) :
    trace.extend (first ++ second) = (trace.extend first).extend second :=
  List.foldl_append

/-- What is added to the events is the instruction that is sent, or a status. -/
theorem events_add (trace : Trace) (exchange : Exchange Request Request.Answer) :
    (trace.add exchange).events = trace.events ∨
      (∃ instruction taken, exchange.1.instruction? = some instruction ∧
        (trace.add exchange).events = trace.events ++ [.sent instruction taken]) ∨
      ∃ status, (trace.add exchange).events = trace.events ++ [.shown status] := by
  obtain ⟨question, answer⟩ := exchange
  cases question with
  | cable call =>
    cases call with
    -- Only a shift into the instruction register sends, and only one of the data register may show.
    | shiftIr data bits =>
      dsimp only [add, Request.instruction?]
      split
      · exact .inl rfl
      · rename_i instruction _ hcode
        exact .inr (.inl ⟨instruction, true, hcode, rfl⟩)
      · rename_i instruction _ hcode
        exact .inr (.inl ⟨instruction, false, hcode, rfl⟩)
    | shiftDr scan =>
      dsimp only [add]
      split
      · exact .inr (.inr ⟨_, rfl⟩)
      · exact .inl rfl
    | _ => exact .inl rfl
  | _ => exact .inl rfl

end Trace

/-! ## What has happened -/

/-- At some moment, `event` happened. Before it `before` held, and `later` holds of what came
after it. -/
def After (before : List Event → Prop) (event : Event → Prop) (later : List Event → Prop)
    (past : List Event) : Prop :=
  ∃ earlier happened rest, past = earlier ++ happened :: rest ∧ before earlier ∧ event happened ∧
    later rest

/-- The instruction was sent and taken. -/
def Event.Takes (instruction : Instruction) (event : Event) : Prop :=
  event = .sent instruction true

/-- The status was read and is as it should be. -/
def Event.Shows (expected : Status → Prop) (event : Event) : Prop :=
  ∃ status, event = .shown status ∧ expected status

/-- Nothing restricts what has happened. -/
def Anything (_ : List Event) : Prop :=
  True

/-- Nothing has happened. -/
def Nothing (past : List Event) : Prop :=
  past = []

/-- The instruction was not sent, not even in vain. -/
def Unsent (instruction : Instruction) (past : List Event) : Prop :=
  ∀ taken, .sent instruction taken ∉ past

section Past

variable {before before' later later' : List Event → Prop} {event event' : Event → Prop}
  {past : List Event}

/-- What is said of a moment, and of the time before and after it, may be weakened. -/
theorem After.mono (h : After before event later past)
    (hbefore : ∀ past, before past → before' past)
    (hevent : ∀ happened, event happened → event' happened)
    (hlater : ∀ past, later past → later' past) : After before' event' later' past := by
  obtain ⟨earlier, happened, rest, hpast, hearlier, hhappened, hrest⟩ := h
  exact ⟨earlier, happened, rest, hpast, hbefore _ hearlier, hevent _ hhappened, hlater _ hrest⟩

/-- What has just happened. -/
theorem after_now {happened : Event} (hbefore : before past) (hevent : event happened) :
    After before event Nothing (past ++ [happened]) :=
  ⟨past, happened, [], rfl, hbefore, hevent, rfl⟩

/-- What has happened last can be told together with what has happened before. -/
theorem After.snoc (h : After (After before event later) event' Nothing past)
    (hlater : ∀ rest happened, later rest → event' happened → later' (rest ++ [happened])) :
    After before event later' past := by
  obtain ⟨_, happened', _, rfl, ⟨earlier, happened, rest, rfl, hearlier, hhappened, hrest⟩,
    hhappened', rfl⟩ := h
  refine ⟨earlier, happened, rest ++ [happened'], ?_, hearlier, hhappened,
    hlater rest happened' hrest hhappened'⟩
  simp

end Past

/-! ## What is kept -/

/-- Neither reading the status nor sending an instruction of the list changes that `P` holds. -/
def KeptBy (allowed : List Instruction) (P : List Event → Prop) : Prop :=
  ∀ past, P past →
    (∀ instruction ∈ allowed, ∀ taken, P (past ++ [.sent instruction taken])) ∧
      ∀ status, P (past ++ [.shown status])

section Kept

variable {allowed : List Instruction} {P R : List Event → Prop}

theorem keptBy_anything : KeptBy allowed Anything :=
  fun _ _ => ⟨fun _ _ _ => trivial, fun _ => trivial⟩

theorem keptBy_and (hP : KeptBy allowed P) (hR : KeptBy allowed R) :
    KeptBy allowed fun past => P past ∧ R past := by
  rintro past ⟨h, h'⟩
  exact ⟨fun instruction hmem taken =>
      ⟨(hP past h).1 instruction hmem taken, (hR past h').1 instruction hmem taken⟩,
    fun status => ⟨(hP past h).2 status, (hR past h').2 status⟩⟩

/-- A fact that is kept is kept where it is only needed under a condition. -/
theorem keptBy_imp {c : Prop} (hP : KeptBy allowed P) : KeptBy allowed fun past => c → P past :=
  fun past h => ⟨fun instruction hmem taken hc => (hP past (h hc)).1 instruction hmem taken,
    fun status hc => (hP past (h hc)).2 status⟩

/-- An instruction stays unsent while only others are sent. -/
theorem keptBy_unsent {instruction : Instruction} (hnot : instruction ∉ allowed) :
    KeptBy allowed (Unsent instruction) := by
  intro past h
  constructor
  · intro other hmem taken taken' hlast
    rcases List.mem_append.mp hlast with hlast | hlast
    · exact h taken' hlast
    · obtain ⟨rfl, -⟩ := Event.sent.inj (List.mem_singleton.mp hlast)
      exact hnot hmem
  · intro status taken hlast
    rcases List.mem_append.mp hlast with hlast | hlast
    · exact h taken hlast
    · cases List.mem_singleton.mp hlast

/-- A moment in the past stays where it is; what is said of the time after it has to be kept. -/
theorem keptBy_after {before : List Event → Prop} {event : Event → Prop} (hP : KeptBy allowed P) :
    KeptBy allowed (After before event P) := by
  rintro past ⟨earlier, happened, rest, rfl, hearlier, hhappened, hrest⟩
  refine ⟨fun instruction hmem taken => ?_, fun status => ?_⟩
  · exact ⟨earlier, happened, rest ++ [.sent instruction taken], by simp, hearlier, hhappened,
      (hP rest hrest).1 instruction hmem taken⟩
  · exact ⟨earlier, happened, rest ++ [.shown status], by simp, hearlier, hhappened,
      (hP rest hrest).2 status⟩

/-- What is kept by an exchange is kept by many. -/
theorem KeptBy.extend (hkept : KeptBy allowed P) {trace : Trace}
    {exchanges : List (Exchange Request Request.Answer)}
    (hsent : ∀ exchange ∈ exchanges, ∀ instruction, exchange.1.instruction? = some instruction →
      instruction ∈ allowed)
    (h : P trace.events) : P (trace.extend exchanges).events := by
  induction exchanges generalizing trace with
  | nil => exact h
  | cons exchange exchanges ih =>
    refine ih (fun next hmem => hsent next (List.mem_cons_of_mem _ hmem)) ?_
    rcases trace.events_add exchange with hsame | ⟨instruction, taken, hcode, hsame⟩ |
      ⟨status, hsame⟩
    · rw [hsame]
      exact h
    · rw [hsame]
      exact (hkept _ h).1 instruction (hsent exchange List.mem_cons_self _ hcode) taken
    · rw [hsame]
      exact (hkept _ h).2 status

end Kept

/-! ## Orders -/

/-- Of each instruction, what must have happened before it is sent. -/
abbrev Order : Type :=
  Instruction → List Event → Prop

/-- No instruction is sent out of order. -/
def Obeys (order : Order) : (trace : Trace) →
    (exchanges : List (Exchange Request Request.Answer)) → Prop
  | _, [] => True
  | trace, exchange :: exchanges =>
    (∀ instruction, exchange.1.instruction? = some instruction → order instruction trace.events) ∧
      Obeys order (trace.add exchange) exchanges

/-- A sequence of exchanges is in order if its first part is, and its second part is after what the
first has shown. -/
theorem obeys_append {order : Order} {trace : Trace}
    {first second : List (Exchange Request Request.Answer)} :
    Obeys order trace (first ++ second) ↔
      Obeys order trace first ∧ Obeys order (trace.extend first) second := by
  induction first generalizing trace with
  | nil => simp [Obeys, Trace.extend]
  | cons exchange first ih =>
    simp only [List.cons_append, Obeys, and_assoc]
    exact and_congr_right fun _ => ih

/-- Whenever an instruction is sent, what has been seen so far allows it. -/
def InOrder (order : Order) (exchanges : List (Exchange Request Request.Answer)) : Prop :=
  ∀ before exchange after instruction, exchanges = before ++ exchange :: after →
    exchange.1.instruction? = some instruction →
    order instruction (({} : Trace).extend before).events

/-- Seen from the start of a run, an order that is obeyed holds before every instruction. -/
theorem Obeys.inOrder {order : Order} {exchanges : List (Exchange Request Request.Answer)}
    (h : Obeys order {} exchanges) : InOrder order exchanges := by
  rintro before exchange after instruction rfl hsent
  exact (obeys_append.mp h).2.1 instruction hsent

/-- Whatever the cable answers, a run of the program that begins where `pre` holds obeys the order,
and `post` holds where it succeeds. -/
def Upholds {α : Type} (order : Order) (pre : List Event → Prop) (program : Host α)
    (post : α → List Event → Prop) : Prop :=
  ∀ ⦃exchanges result⦄, Host.Runs program exchanges result → ∀ trace : Trace, pre trace.events →
    Obeys order trace exchanges ∧
      ∀ value, result = .ok value → post value (trace.extend exchanges).events

namespace Upholds

variable {α β : Type} {order : Order} {pre pre' : List Event → Prop} {allowed : List Instruction}
  {P R : List Event → Prop}

/-- A program may be given more than it needs, and less asked of it than it ensures. -/
theorem weaken {program : Host α} {post post' : α → List Event → Prop}
    (h : Upholds order pre program post) (hpre : ∀ past, pre' past → pre past)
    (hpost : ∀ value past, post value past → post' value past) :
    Upholds order pre' program post' := by
  intro exchanges result hruns trace hbegin
  obtain ⟨hobeys, hend⟩ := h hruns trace (hpre _ hbegin)
  exact ⟨hobeys, fun value hok => hpost value _ (hend value hok)⟩

theorem pure (value : α) : Upholds order pre (Pure.pure value) fun _ => pre := by
  intro exchanges result hruns trace hbegin
  obtain ⟨rfl, -⟩ := Host.runs_pure_iff.mp hruns
  exact ⟨trivial, fun _ _ => hbegin⟩

/-- After a failure nothing has to hold. -/
theorem throw (error : Error) {post : α → List Event → Prop} :
    Upholds order pre (MonadExcept.throw error : Host α) post := by
  intro exchanges result hruns trace hbegin
  obtain ⟨rfl, rfl⟩ := Host.runs_throw_iff.mp hruns
  exact ⟨trivial, fun value hok => by cases hok⟩

/-- A sequence upholds an order if its second part does from where the first may end. -/
theorem bind {program : Host α} {next : α → Host β} {middle : α → List Event → Prop}
    {post : β → List Event → Prop} (h : Upholds order pre program middle)
    (hnext : ∀ value, Upholds order (middle value) (next value) post) :
    Upholds order pre (program >>= next) post := by
  intro exchanges result hruns trace hbegin
  rcases Host.runs_bind_iff.mp hruns with
    ⟨value, first, second, rfl, hfirst, hsecond⟩ | ⟨error, rfl, hfirst⟩
  · obtain ⟨hobeys, hmiddle⟩ := h hfirst trace hbegin
    obtain ⟨hobeys', hend⟩ := hnext value hsecond (trace.extend first) (hmiddle value rfl)
    rw [Trace.extend_append]
    exact ⟨obeys_append.mpr ⟨hobeys, hobeys'⟩, hend⟩
  · exact ⟨(h hfirst trace hbegin).1, fun value hok => by cases hok⟩

/-- A program may fail anywhere, so its handler has to make do with anything. -/
theorem tryCatch {program : Host α} {handle : Error → Host α} {post : α → List Event → Prop}
    (h : Upholds order pre program post)
    (hhandle : ∀ error, Upholds order Anything (handle error) post) :
    Upholds order pre (MonadExcept.tryCatch program handle) post := by
  intro exchanges result hruns trace hbegin
  rcases Host.runs_tryCatch_iff.mp hruns with
    ⟨value, rfl, hfirst⟩ | ⟨error, first, second, rfl, hfirst, hsecond⟩
  · exact h hfirst trace hbegin
  · have hobeys := (h hfirst trace hbegin).1
    obtain ⟨hobeys', hend⟩ := hhandle error hsecond (trace.extend first) trivial
    rw [Trace.extend_append]
    exact ⟨obeys_append.mpr ⟨hobeys, hobeys'⟩, hend⟩

/-- What allows every instruction that a program sends, and is kept by all of them, holds
throughout. -/
theorem keep {program : Host α} (hsends : Host.Sends allowed program) (hkept : KeptBy allowed P)
    (horder : ∀ instruction ∈ allowed, ∀ past, P past → order instruction past) :
    Upholds order P program fun _ => P := by
  intro exchanges result hruns trace hbegin
  have hsent := hsends hruns
  refine ⟨?_, fun _ _ => hkept.extend hsent hbegin⟩
  -- On the exchanges: each is allowed where `P` holds, and `P` holds again after it. That they are
  -- a run of the program does not matter any more.
  clear hruns
  induction exchanges generalizing trace with
  | nil => trivial
  | cons exchange exchanges ih =>
    have hnext : ∀ next ∈ exchanges, ∀ instruction, next.1.instruction? = some instruction →
        instruction ∈ allowed := fun next hmem => hsent next (List.mem_cons_of_mem _ hmem)
    refine ⟨fun instruction hcode => ?_, ih (trace.add exchange) ?_ hnext⟩
    · exact horder instruction (hsent exchange List.mem_cons_self _ hcode) _ hbegin
    · have hone : ∀ next ∈ [exchange], ∀ instruction, next.1.instruction? = some instruction →
          instruction ∈ allowed := by
        intro next hmem
        rw [List.mem_singleton.mp hmem]
        exact hsent exchange List.mem_cons_self
      exact hkept.extend hone hbegin

/-- A program that sends no instruction at all obeys every order. -/
theorem silent {program : Host α} (hsends : Host.Sends [] program) (hkept : KeptBy [] P) :
    Upholds order P program fun _ => P :=
  .keep hsends hkept fun _ hmem => absurd hmem List.not_mem_nil

/-- What is kept by all instructions of a program holds afterwards if it held before. -/
theorem frame {program : Host α} {post : α → List Event → Prop} (h : Upholds order pre program post)
    (hsends : Host.Sends allowed program) (hkept : KeptBy allowed R) :
    Upholds order (fun past => pre past ∧ R past) program
      fun value past => post value past ∧ R past := by
  rintro exchanges result hruns trace ⟨hbegin, hframe⟩
  obtain ⟨hobeys, hend⟩ := h hruns trace hbegin
  exact ⟨hobeys, fun value hok => ⟨hend value hok, hkept.extend (hsends hruns) hframe⟩⟩

end Upholds

/-! ## Instructions and registers -/

section Device

variable {order : Order} {pre P : List Event → Prop}

/-- A question that is neither an instruction nor a scan adds nothing to what was seen. -/
theorem upholds_ask {request : Request} (hsent : request.instruction? = none)
    (hadd : ∀ (trace : Trace) (answer : request.Answer), trace.add ⟨request, answer⟩ = trace) :
    Upholds order pre (Host.ask request) fun _ => pre := by
  intro exchanges result hruns trace hbegin
  obtain ⟨_, answer, _, rfl, hput, hdone⟩ := Dialogue.runs_bind_iff.mp hruns
  obtain rfl := Dialogue.runs_put_iff.mp hput
  obtain ⟨rfl, -⟩ := Dialogue.runs_done_iff.mp hdone
  refine ⟨⟨fun instruction hcode => ?_, trivial⟩, fun _ _ => ?_⟩
  · cases hsent.symm.trans hcode
  · simpa [Trace.extend, hadd] using hbegin

theorem upholds_log (level : LogLevel) (text : String) :
    Upholds order pre (Host.log level text) fun _ => pre :=
  upholds_ask rfl fun _ _ => rfl

theorem upholds_progress (report : Progress) :
    Upholds order pre (Host.progress report) fun _ => pre :=
  upholds_ask rfl fun _ _ => rfl

/-- The reports on a stage leave no trace. -/
theorem upholds_reporting (stage : Stage) (total : Nat) {body : Host Unit}
    {post : Unit → List Event → Prop} (h : Upholds order pre body post) :
    Upholds order pre (Host.reporting stage total body) post := by
  refine (upholds_progress _).bind fun _ => ?_
  refine Upholds.bind (h.tryCatch fun error => ?_) fun _ => upholds_progress _
  exact (upholds_progress _).bind fun _ => .throw error

theorem upholds_toggleClock (cycles : UInt32) :
    Upholds order pre (Host.toggleClock cycles) fun _ => pre := by
  intro exchanges result hruns trace hbegin
  obtain rfl := Dialogue.runs_put_iff.mp hruns
  exact ⟨⟨fun _ hsent => (by cases hsent), trivial⟩, fun _ _ => hbegin⟩

/-- An instruction is sent where the order allows it. -/
theorem upholds_send (instruction : Instruction)
    (horder : ∀ past, pre past → order instruction past) :
    Upholds order pre (Device.send instruction) fun _ =>
      After pre (Event.Takes instruction) Nothing := by
  have hshift : Upholds order pre (Host.shiftIr [instruction.opcode] 8) fun _ =>
      After pre (Event.Takes instruction) Nothing := by
    intro exchanges result hruns trace hbegin
    obtain rfl := Dialogue.runs_put_iff.mp hruns
    have hcode : Instruction.ofOpcode? ([instruction.opcode].headD 0) = some instruction :=
      Instruction.ofOpcode?_opcode instruction
    refine ⟨⟨fun sent hsent => ?_, trivial⟩, fun value hok => ?_⟩
    · obtain rfl := Option.some_inj.mp (hcode.symm.trans hsent)
      exact horder _ hbegin
    · subst hok
      -- If the shift has succeeded, it is the last event, and nothing has happened since.
      have hevents : (trace.extend [⟨.cable (.shiftIr [instruction.opcode] 8), .ok value⟩]).events =
          trace.events ++ [.sent instruction true] := by
        simp [Trace.extend, Trace.add]
      rw [hevents]
      exact after_now hbegin rfl
  exact hshift.bind fun _ => upholds_toggleClock _

/-- The scan that reads a register. -/
def Host.registerScan : Scan :=
  ⟨some [0xFF, 0xFF, 0xFF, 0xFF], some 4, 32, .runTestIdle⟩

/-- The exchanges are a look at the status, which shows this. -/
def Host.Look (exchanges : List (Exchange Request Request.Answer)) (status : Status) : Prop :=
  ∃ captured : Bytes, exchanges =
      [⟨.cable (.shiftIr [Instruction.readStatus.opcode] 8), .ok ()⟩,
        ⟨.cable (.toggleClock Device.settlingClocks), .ok ()⟩,
        ⟨.cable (.shiftDr registerScan), .ok captured⟩] ∧
    status = ⟨Bytes.wordLE (registerScan.receive captured)⟩

/-- What is exchanged while the status is read. -/
theorem Host.Runs.of_readStatus {exchanges : List (Exchange Request Request.Answer)}
    {status : Status} (h : Host.Runs Device.readStatus exchanges (.ok status)) :
    Host.Look exchanges status := by
  obtain ⟨_, _, _, rfl, hregister, hpure⟩ := h.of_bind
  obtain ⟨rfl, hstatus⟩ := runs_pure_iff.mp hpure
  obtain ⟨_, _, _, rfl, hsend, hread⟩ := hregister.of_bind
  obtain ⟨_, _, _, rfl, hshift, htoggle⟩ := hsend.of_bind
  obtain ⟨_, _, _, rfl, hscan, hpure'⟩ := hread.of_bind
  obtain ⟨rfl, hword⟩ := runs_pure_iff.mp hpure'
  obtain ⟨captured, _, _, rfl, hcapture, hpure''⟩ := hscan.of_bind
  obtain ⟨rfl, hreceived⟩ := runs_pure_iff.mp hpure''
  obtain rfl := Dialogue.runs_put_iff.mp hshift
  obtain rfl := Dialogue.runs_put_iff.mp htoggle
  obtain rfl := Dialogue.runs_put_iff.mp hcapture
  refine ⟨captured, rfl, ?_⟩
  rw [Except.ok.inj hstatus, Except.ok.inj hword, Except.ok.inj hreceived]
  rfl

/-- What was read of the status is what was seen last. -/
theorem upholds_readStatus (hkept : KeptBy [.readStatus] pre)
    (horder : ∀ past, pre past → order .readStatus past) :
    Upholds order pre Device.readStatus fun status => After pre (· = .shown status) Nothing := by
  intro exchanges result hruns trace hbegin
  have horder' : ∀ instruction ∈ [Instruction.readStatus], ∀ past, pre past →
      order instruction past := by
    intro instruction hmem
    rw [List.mem_singleton.mp hmem]
    exact horder
  -- That the order is kept follows from the instructions that are sent. What the read shows is in
  -- its exchanges.
  refine ⟨(Upholds.keep Host.sends_readStatus hkept horder' hruns trace hbegin).1,
    fun status hok => ?_⟩
  subst hok
  obtain ⟨captured, rfl, rfl⟩ := hruns.of_readStatus
  have hevents : (trace.extend [⟨.cable (.shiftIr [Instruction.readStatus.opcode] 8), .ok ()⟩,
      ⟨.cable (.toggleClock Device.settlingClocks), .ok ()⟩,
      ⟨.cable (.shiftDr Host.registerScan), .ok captured⟩]).events =
      (trace.events ++ [.sent .readStatus true]) ++
        [.shown ⟨Bytes.wordLE (Host.registerScan.receive captured)⟩] := by
    simp [Trace.extend, Trace.add]
  rw [hevents]
  exact after_now ((hkept _ hbegin).1 _ (List.mem_singleton_self _) true) rfl

/-- A wait that succeeds has last seen the status that was awaited. -/
theorem upholds_awaitStatus (hkept : KeptBy [.readStatus] pre)
    (horder : ∀ past, pre past → order .readStatus past) (mask expected : Status) (limit : Nat) :
    Upholds order pre (Device.awaitStatus mask expected limit) fun _ =>
      After pre (Event.Shows fun status =>
        (status.bits &&& mask.bits == expected.bits) = true) Nothing := by
  induction limit with
  | zero => exact (upholds_log _ _).bind fun _ => .throw _
  | succ limit ih =>
    refine (upholds_readStatus hkept horder).bind fun status => (upholds_log _ _).bind fun _ => ?_
    split
    · rename_i hshown
      refine (Upholds.pure ()).weaken (fun _ h => h) fun _ past h => ?_
      exact h.mono (fun _ h => h) (fun _ hevent => ⟨status, hevent, hshown⟩) fun _ h => h
    · -- What was read in vain does not matter for the next read.
      refine ih.weaken (fun past h => ?_) fun _ _ h => h
      obtain ⟨earlier, _, _, rfl, hearlier, rfl, rfl⟩ := h
      exact (hkept _ hearlier).2 status

/-- The gate has been opened, and nothing was sent to close it since. -/
def GateOpened : List Event → Prop :=
  After Anything (Event.Takes .configEnable) (Unsent .configDisable)

/-- The gate has been opened, and it was seen open by the last thing that was done. -/
def GateSeenOpen : List Event → Prop :=
  After GateOpened (Event.Shows fun status => status.has .systemEditMode = true) Nothing

/-- The gate stays open until the instruction that closes it is sent. -/
theorem keptBy_gateOpened {allowed : List Instruction} (h : .configDisable ∉ allowed) :
    KeptBy allowed GateOpened :=
  keptBy_after (keptBy_unsent h)

/-- The wait that follows the instruction ends with a look that shows an open gate. -/
theorem upholds_enableConfig (hopen : ∀ past, order .configEnable past)
    (hread : ∀ past, order .readStatus past) (limit : Nat) :
    Upholds order Anything (Device.enableConfig limit) fun _ => GateSeenOpen := by
  refine (upholds_send _ fun past _ => hopen past).bind fun _ => ?_
  refine (upholds_awaitStatus (keptBy_gateOpened (by decide)) (fun past _ => hread past) _ _
    limit).weaken (fun past h => ?_) fun _ past h => ?_
  · refine h.mono (fun _ h => h) (fun _ h => h) fun rest hrest => ?_
    rw [show rest = [] from hrest]
    exact fun _ => List.not_mem_nil
  · refine h.mono (fun _ h => h) (fun _ hevent => ?_) fun _ h => h
    obtain ⟨status, hshown, hmatches⟩ := hevent
    exact ⟨status, hshown, (Status.and_mask_eq_mask ..).symm.trans hmatches⟩

/-- The gate was closed after `before`, and has been seen closed. -/
def GateSeenClosed (before : List Event → Prop) : List Event → Prop :=
  After (After before (Event.Takes .configDisable) (Unsent .configEnable))
    (Event.Shows fun status => status.has .systemEditMode = false) Anything

/-- The gate was closed after `before`, and it was seen closed by the last thing that was done. -/
def GateJustClosed (before : List Event → Prop) : List Event → Prop :=
  After (After before (Event.Takes .configDisable) (Unsent .configEnable))
    (Event.Shows fun status => status.has .systemEditMode = false) Nothing

/-- The wait that follows the instructions ends with a look that shows a closed gate, and whatever
held before the gate was closed is kept as a fact about that moment. -/
theorem upholds_disableConfig_justClosed (hclose : ∀ past, order .configDisable past)
    (hnoop : ∀ past, order .noop past) (hread : ∀ past, order .readStatus past) (limit : Nat) :
    Upholds order pre (Device.disableConfig limit) fun _ => GateJustClosed pre := by
  let closing := After pre (Event.Takes .configDisable) (Unsent .configEnable)
  have hkept : ∀ {allowed : List Instruction}, .configEnable ∉ allowed → KeptBy allowed closing :=
    fun h => keptBy_after (keptBy_unsent h)
  -- Just after the instruction nothing has followed it, so neither has one that opens the gate.
  have hsend : Upholds order pre (Device.send .configDisable) fun _ => closing := by
    refine (upholds_send _ fun past _ => hclose past).weaken (fun _ h => h) fun _ past h => ?_
    refine h.mono (fun _ h => h) (fun _ h => h) fun rest hrest => ?_
    rw [show rest = [] from hrest]
    exact fun _ => List.not_mem_nil
  have hpause : Upholds order closing (Device.send .noop) fun _ => closing := by
    refine .keep (Host.sends_send .noop) (hkept (by decide)) fun instruction hmem past _ => ?_
    rw [List.mem_singleton.mp hmem]
    exact hnoop past
  refine hsend.bind fun _ => hpause.bind fun _ => ?_
  refine (upholds_awaitStatus (hkept (by decide)) (fun past _ => hread past) _ _ limit).weaken
    (fun _ h => h) fun _ past h => ?_
  refine h.mono (fun _ h => h) (fun _ hevent => ?_) fun _ h => h
  -- The status that was awaited is one in which the bit of the gate is clear.
  obtain ⟨status, hshown, hmatches⟩ := hevent
  refine ⟨status, hshown, ?_⟩
  rw [Status.and_mask_eq_nothing] at hmatches
  exact (Bool.not_eq_true' _).mp hmatches

/-- A gate that was closed and seen closed is known to be so from then on. -/
theorem upholds_disableConfig (hclose : ∀ past, order .configDisable past)
    (hnoop : ∀ past, order .noop past) (hread : ∀ past, order .readStatus past) (limit : Nat) :
    Upholds order pre (Device.disableConfig limit) fun _ => GateSeenClosed pre :=
  (upholds_disableConfig_justClosed hclose hnoop hread limit).weaken (fun _ h => h) fun _ _ h =>
    h.mono (fun _ h => h) (fun _ h => h) fun _ _ => trivial

end Device

end FpgaProgrammer
