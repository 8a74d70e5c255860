import FpgaProgrammer.Proofs.Host.Evaluation

/-!
# Runs of dialogues

`Dialogue.Runs d exchanges value` says that `d`, answered as in `exchanges`, ends with `value`. It
says nothing about who answers: what holds of every run holds over every cable, whatever the cable
returns and wherever it fails.

* `runs_bind_iff`: a sequence runs like its first part, and then like what follows.
* `Host.runs_bind_iff`, `Host.runs_tryCatch_iff`: the same for programs that may fail.
* `Dialogue.Runs.follows`: runs that get the same answers put the same questions.
* `Dialogue.Asks`: which questions are put at all.
* `Host.runs_run`: over a cable, `Host.run` keeps the exchanges of a run.

If it is a handler that answers, the exchanges determine its state at every moment of the run:
`Handler.replay` puts the questions again. A stretch of a run whose exchanges are those of a program
is then an evaluation of that program from the state at its start (`Host.eval_of_stretch`).
-/

namespace FpgaProgrammer

namespace Handler

variable {Q : Type} {A : Q → Type} {σ : Type}

/-- The state after the questions of some exchanges were put. -/
def replay (handler : Handler Q A σ) (state : σ) (exchanges : List (Exchange Q A)) : σ :=
  exchanges.foldl (fun state exchange => (handler exchange.1 state).2) state

/-- Every answer is the one that the handler gives. -/
def Gives (handler : Handler Q A σ) : (state : σ) → (exchanges : List (Exchange Q A)) → Prop
  | _, [] => True
  | state, ⟨question, answer⟩ :: exchanges =>
    (handler question state).1 = answer ∧ Gives handler (handler question state).2 exchanges

theorem replay_append (handler : Handler Q A σ) (state : σ) (first second : List (Exchange Q A)) :
    handler.replay state (first ++ second) = handler.replay (handler.replay state first) second :=
  List.foldl_append

/-- The handler gives the answers of a sequence if it gives those of the parts, each from the state
that it starts in. -/
theorem gives_append {handler : Handler Q A σ} {state : σ} {first second : List (Exchange Q A)} :
    handler.Gives state (first ++ second) ↔
      handler.Gives state first ∧ handler.Gives (handler.replay state first) second := by
  induction first generalizing state with
  | nil => simp [Gives, replay]
  | cons exchange first ih =>
    obtain ⟨question, answer⟩ := exchange
    simp only [List.cons_append, Gives, and_assoc]
    exact and_congr_right fun _ => ih

end Handler

namespace Dialogue

variable {Q Q' : Type} {A : Q → Type} {A' : Q' → Type} {α β σ : Type}

/-- `Runs d exchanges value`: answered as in `exchanges`, the dialogue ends with `value`. -/
inductive Runs : Dialogue Q A α → List (Exchange Q A) → α → Prop where
  /-- A dialogue that has ended asks nothing. -/
  | done (value : α) : Runs (.done value) [] value
  /-- A question is followed by a run of what comes after its answer. -/
  | ask {question : Q} {next : A question → Dialogue Q A α} (answer : A question)
      {exchanges : List (Exchange Q A)} {value : α} (rest : Runs (next answer) exchanges value) :
      Runs (.ask question next) (⟨question, answer⟩ :: exchanges) value

/-- A dialogue that has ended has no exchanges, and one value. -/
theorem runs_done_iff {given value : α} {exchanges : List (Exchange Q A)} :
    Runs (.done given : Dialogue Q A α) exchanges value ↔ exchanges = [] ∧ given = value := by
  constructor
  · rintro ⟨⟩
    exact ⟨rfl, rfl⟩
  · rintro ⟨rfl, rfl⟩
    exact .done given

/-- A single question is a single exchange, and ends with its answer. -/
theorem runs_put_iff {question : Q} {exchanges : List (Exchange Q A)} {value : A question} :
    Runs (put question) exchanges value ↔ exchanges = [⟨question, value⟩] := by
  constructor
  · rintro (_ | ⟨answer, rest⟩)
    obtain ⟨rfl, rfl⟩ := runs_done_iff.mp rest
    rfl
  · rintro rfl
    exact .ask value (.done value)

/-- A sequence runs like its first part, and then like what follows it. -/
theorem runs_bind_iff {d : Dialogue Q A α} {f : α → Dialogue Q A β}
    {exchanges : List (Exchange Q A)} {value : β} :
    Runs (d >>= f) exchanges value ↔
      ∃ first middle second, exchanges = first ++ second ∧ Runs d first middle ∧
        Runs (f middle) second value := by
  constructor
  · intro h
    -- On the first part: every question of it is one of the sequence.
    induction d generalizing exchanges with
    | done given => exact ⟨[], given, exchanges, rfl, .done given, h⟩
    | ask question next ih =>
      obtain _ | ⟨answer, rest⟩ := h
      obtain ⟨first, middle, second, rfl, hfirst, hsecond⟩ := ih answer rest
      exact ⟨⟨question, answer⟩ :: first, middle, second, rfl, .ask answer hfirst, hsecond⟩
  · rintro ⟨first, middle, second, rfl, hfirst, hsecond⟩
    induction hfirst with
    | done => exact hsecond
    | ask answer rest ih => exact .ask answer (ih hsecond)

/-- Over any handler, the exchanges that are kept are those of a run, with the answers of the
handler. -/
theorem runs_recording (handler : Handler Q A σ) (d : Dialogue Q A α) (state : σ)
    (past : List (Exchange Q A)) :
    ∃ exchanges, (d.run handler.recording (state, past)).2.2 = exchanges.reverse ++ past ∧
      Runs d exchanges (d.run handler.recording (state, past)).1 ∧
      handler.Gives state exchanges := by
  induction d generalizing state past with
  | done value => exact ⟨[], rfl, .done value, trivial⟩
  | ask question next ih =>
    obtain ⟨exchanges, hkept, hruns, hgives⟩ :=
      ih (handler question state).1 (handler question state).2
        (⟨question, (handler question state).1⟩ :: past)
    refine ⟨⟨question, (handler question state).1⟩ :: exchanges, ?_, .ask _ hruns, rfl, hgives⟩
    simpa [Handler.recording, run] using hkept

/-- A run whose answers are those of a handler is the run over that handler. -/
theorem Runs.run_eq {handler : Handler Q A σ} {d : Dialogue Q A α}
    {exchanges : List (Exchange Q A)} {value : α} (h : Runs d exchanges value) {state : σ}
    (hgives : handler.Gives state exchanges) :
    d.run handler state = (value, handler.replay state exchanges) := by
  induction h generalizing state with
  | done value => rfl
  | ask answer rest ih =>
    obtain ⟨rfl, hrest⟩ := hgives
    exact ih hrest

/-- As long as the answers are those of a handler, every run over it puts the same questions, and
then the one that comes next. -/
theorem Runs.follows {handler : Handler Q A σ} {d : Dialogue Q A α} {state : σ}
    {past later other : List (Exchange Q A)} {exchange : Exchange Q A} {value value' : α}
    (h : Runs d (past ++ exchange :: later) value) (h' : Runs d other value')
    (hpast : handler.Gives state past) (hother : handler.Gives state other) :
    ∃ answer rest, other = past ++ ⟨exchange.1, answer⟩ :: rest := by
  induction past generalizing d state other with
  | nil =>
    obtain _ | ⟨answer, rest⟩ := h
    obtain _ | ⟨answer', rest'⟩ := h'
    exact ⟨answer', _, rfl⟩
  | cons earlier past ih =>
    obtain _ | ⟨answer, rest⟩ := h
    obtain _ | ⟨answer', rest'⟩ := h'
    -- The handler answers one question in one way.
    obtain ⟨rfl, hpast⟩ := hpast
    obtain ⟨rfl, hother⟩ := hother
    obtain ⟨answer, others, rfl⟩ := ih rest rest' hpast hother
    exact ⟨answer, others, rfl⟩

/-- What is asked to find the answers to the questions of a dialogue is one run after the other, one
for each question. -/
theorem Runs.of_substitute {meaning : (question : Q) → Dialogue Q' A' (A question)}
    {d : Dialogue Q A α} {exchanges : List (Exchange Q' A')} {value : α}
    (h : Runs (d.substitute meaning) exchanges value) :
    ∃ answered, Runs d answered value ∧
      ∀ exchange ∈ answered, ∃ stretch, stretch <:+: exchanges ∧
        Runs (meaning exchange.1) stretch exchange.2 := by
  induction d generalizing exchanges with
  | done given =>
    obtain ⟨rfl, rfl⟩ := runs_done_iff.mp h
    exact ⟨[], .done given, by simp⟩
  | ask question next ih =>
    obtain ⟨first, answer, rest, rfl, hfirst, hrest⟩ := runs_bind_iff.mp h
    obtain ⟨answered, hruns, hserved⟩ := ih answer hrest
    refine ⟨⟨question, answer⟩ :: answered, .ask answer hruns, List.forall_mem_cons.mpr ⟨?_, ?_⟩⟩
    · exact ⟨first, List.prefix_append first rest |>.isInfix, hfirst⟩
    · intro exchange hmem
      obtain ⟨stretch, hwithin, hstretch⟩ := hserved exchange hmem
      exact ⟨stretch, hwithin.trans (List.suffix_append first rest).isInfix, hstretch⟩

/-! ### Questions -/

/-- Whatever is answered, every question is one of those allowed. -/
def Asks (allowed : Q → Prop) : Dialogue Q A α → Prop
  | done _ => True
  | ask question next => allowed question ∧ ∀ answer, (next answer).Asks allowed

variable {allowed : Q → Prop}

/-- The questions of a sequence are those of its parts. -/
theorem Asks.bind {d : Dialogue Q A α} {f : α → Dialogue Q A β} (h : d.Asks allowed)
    (hf : ∀ value, (f value).Asks allowed) : (d >>= f).Asks allowed := by
  induction d with
  | done value => exact hf value
  | ask question next ih => exact ⟨h.1, fun answer => ih answer (h.2 answer)⟩

/-- The questions of a run are allowed. -/
theorem Asks.of_runs {d : Dialogue Q A α} (h : d.Asks allowed) {exchanges : List (Exchange Q A)}
    {value : α} (hruns : Runs d exchanges value) : ∀ exchange ∈ exchanges, allowed exchange.1 := by
  induction hruns with
  | done value => simp
  | ask answer rest ih => simpa using ⟨h.1, ih (h.2 answer)⟩

end Dialogue

namespace Host

variable {σ α β : Type} {exchanges : List (Exchange Request Request.Answer)}

/-- Answered as in `exchanges`, the program ends with `result`. -/
def Runs (program : Host α) (exchanges : List (Exchange Request Request.Answer))
    (result : Except Error α) : Prop :=
  Dialogue.Runs (ExceptT.run program) exchanges result

/-- Over any cable, the exchanges that are kept are those of a run, with the answers of the
cable. -/
theorem runs_gives_run (cable : Cable σ) (filter : LogFilter) (program : Host α) (device : σ) :
    Runs program (run cable filter program device).exchanges
        (run cable filter program device).result ∧
      (surroundings cable filter).Gives device (run cable filter program device).exchanges := by
  obtain ⟨exchanges, hkept, hruns, hgives⟩ :=
    Dialogue.runs_recording (surroundings cable filter) (ExceptT.run program) device []
  have hexchanges : (run cable filter program device).exchanges = exchanges := by
    simp [run, hkept]
  rw [hexchanges]
  exact ⟨hruns, hgives⟩

/-- What a cable leads to is one of the runs of the program. -/
theorem runs_run (cable : Cable σ) (filter : LogFilter) (program : Host α) (device : σ) :
    Runs program (run cable filter program device).exchanges
      (run cable filter program device).result :=
  (runs_gives_run cable filter program device).1

/-- A stretch of a run that is a run of `program` evaluates it, from the state at its start. -/
theorem eval_of_stretch {cable : Cable σ} {filter : LogFilter} {device : σ} {whole : Host β}
    {program : Host α} {result : Except Error α}
    {before stretch rest : List (Exchange Request Request.Answer)}
    (hsplit : (run cable filter whole device).exchanges = before ++ stretch ++ rest)
    (hruns : Runs program stretch result) :
    eval (surroundings cable filter) program ((surroundings cable filter).replay device before) =
      (result, (surroundings cable filter).replay device (before ++ stretch)) := by
  have hgives := (runs_gives_run cable filter whole device).2
  rw [hsplit, Handler.gives_append, Handler.gives_append] at hgives
  obtain ⟨⟨-, hstretch⟩, -⟩ := hgives
  rw [Handler.replay_append]
  exact hruns.run_eq hstretch

theorem runs_pure_iff {given : α} {result : Except Error α} :
    Runs (pure given) exchanges result ↔ exchanges = [] ∧ result = .ok given :=
  Dialogue.runs_done_iff.trans (and_congr_right fun _ => eq_comm)

theorem runs_throw_iff {error : Error} {result : Except Error α} :
    Runs (throw error : Host α) exchanges result ↔ exchanges = [] ∧ result = .error error :=
  Dialogue.runs_done_iff.trans (and_congr_right fun _ => eq_comm)

/-- A sequence runs like its first part and what follows a success, or ends with a failure. -/
theorem runs_bind_iff {program : Host α} {next : α → Host β} {result : Except Error β} :
    Runs (program >>= next) exchanges result ↔
      (∃ value first second, exchanges = first ++ second ∧ Runs program first (.ok value) ∧
        Runs (next value) second result) ∨
      ∃ error, result = .error error ∧ Runs program exchanges (.error error) := by
  rw [Runs, ExceptT.run_bind, Dialogue.runs_bind_iff]
  constructor
  · rintro ⟨first, error | value, second, rfl, hfirst, hsecond⟩
    · obtain ⟨rfl, rfl⟩ := Dialogue.runs_done_iff.mp hsecond
      rw [List.append_nil]
      exact .inr ⟨error, rfl, hfirst⟩
    · exact .inl ⟨value, first, second, rfl, hfirst, hsecond⟩
  · rintro (⟨value, first, second, rfl, hfirst, hsecond⟩ | ⟨error, rfl, hfirst⟩)
    · exact ⟨first, .ok value, second, rfl, hfirst, hsecond⟩
    · exact ⟨exchanges, .error error, [], by simp, hfirst, .done _⟩

/-- What is returned in the end makes no difference to the exchanges. -/
theorem Runs.of_bind_pure {program : Host α} {given : β} {result : Except Error β}
    (h : Runs (program >>= fun _ => pure given) exchanges result) :
    ∃ ending, Runs program exchanges ending ∧ result = ending.map fun _ => given := by
  rcases runs_bind_iff.mp h with ⟨value, first, second, rfl, hfirst, hsecond⟩ | ⟨error, rfl, hfirst⟩
  · obtain ⟨rfl, rfl⟩ := runs_pure_iff.mp hsecond
    rw [List.append_nil]
    exact ⟨.ok value, hfirst, rfl⟩
  · exact ⟨.error error, hfirst, rfl⟩

/-- A handled program runs like the program, or like what follows its failure. -/
theorem runs_tryCatch_iff {program : Host α} {handle : Error → Host α}
    {result : Except Error α} :
    Runs (tryCatch program handle) exchanges result ↔
      (∃ value, result = .ok value ∧ Runs program exchanges (.ok value)) ∨
      ∃ error first second, exchanges = first ++ second ∧ Runs program first (.error error) ∧
        Runs (handle error) second result := by
  rw [Runs, ExceptT.run_tryCatch, Dialogue.runs_bind_iff]
  constructor
  · rintro ⟨first, error | value, second, rfl, hfirst, hsecond⟩
    · exact .inr ⟨error, first, second, rfl, hfirst, hsecond⟩
    · obtain ⟨rfl, rfl⟩ := Dialogue.runs_done_iff.mp hsecond
      rw [List.append_nil]
      exact .inl ⟨value, rfl, hfirst⟩
  · rintro (⟨value, rfl, hfirst⟩ | ⟨error, first, second, rfl, hfirst, hsecond⟩)
    · exact ⟨exchanges, .ok value, [], by simp, hfirst, .done _⟩
    · exact ⟨first, .error error, second, rfl, hfirst, hsecond⟩

/-- A successful sequence is a success followed by one. -/
theorem Runs.of_bind {program : Host α} {next : α → Host β} {value : β}
    (h : Runs (program >>= next) exchanges (.ok value)) :
    ∃ middle first second, exchanges = first ++ second ∧ Runs program first (.ok middle) ∧
      Runs (next middle) second (.ok value) := by
  obtain h | ⟨error, herror, -⟩ := runs_bind_iff.mp h
  · exact h
  · cases herror

/-- A program asks only what its parts ask. -/
theorem asks_bind {allowed : Request → Prop} {program : Host α} {next : α → Host β}
    (h : (ExceptT.run program).Asks allowed)
    (hnext : ∀ value, (ExceptT.run (next value)).Asks allowed) :
    (ExceptT.run (program >>= next)).Asks allowed := by
  refine Dialogue.Asks.bind h fun result => ?_
  cases result with
  | ok value => exact hnext value
  | error error => trivial

end Host

end FpgaProgrammer
