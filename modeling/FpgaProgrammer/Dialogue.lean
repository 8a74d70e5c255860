/-!
# Dialogues

A dialogue is a computation that puts questions to its surroundings and goes on with the answers.
It says nothing about who answers: a `Handler` does, and may keep a state of its own. The same
dialogue can so be run against a simulator, against a recorded script or against a handler that
fails on purpose, and what holds for every handler can be proved from the dialogue alone.
-/

namespace FpgaProgrammer

/-- A computation that may put questions `q : Q`, each answered by a value of `A q`, before it
ends with an `α`. -/
inductive Dialogue (Q : Type) (A : Q → Type) (α : Type) : Type where
  /-- The computation has ended. -/
  | done (value : α)
  /-- The computation asks, and goes on with the answer. -/
  | ask (question : Q) (next : A question → Dialogue Q A α)

/-- Something that answers questions, keeping a state from one answer to the next. -/
abbrev Handler (Q : Type) (A : Q → Type) (σ : Type) : Type :=
  (question : Q) → σ → A question × σ

namespace Dialogue

variable {Q Q' : Type} {A : Q → Type} {A' : Q' → Type} {α β σ : Type}

/-- Goes on with `f` once the first dialogue has ended. -/
def bind : Dialogue Q A α → (α → Dialogue Q A β) → Dialogue Q A β
  | done value, f => f value
  | ask question next, f => ask question fun answer => (next answer).bind f

instance : Monad (Dialogue Q A) where
  pure := done
  bind := bind

/-- The dialogue that puts one question and returns the answer. -/
def put (question : Q) : Dialogue Q A (A question) :=
  ask question done

/-- Runs a dialogue against a handler. -/
def run (handler : Handler Q A σ) : Dialogue Q A α → σ → α × σ
  | done value, state => (value, state)
  | ask question next, state =>
    let (answer, state) := handler question state
    (next answer).run handler state

/-- Replaces every question by a dialogue that finds its answer. -/
def substitute (meaning : (question : Q) → Dialogue Q' A' (A question)) :
    Dialogue Q A α → Dialogue Q' A' α
  | done value => done value
  | ask question next =>
    (meaning question).bind fun answer => (next answer).substitute meaning

/-! ## Laws -/

theorem bind_done (d : Dialogue Q A α) : d.bind done = d := by
  induction d with
  | done value => rfl
  | ask question next ih => simp [bind, ih]

theorem bind_assoc {γ : Type} (d : Dialogue Q A α) (f : α → Dialogue Q A β)
    (g : β → Dialogue Q A γ) : (d.bind f).bind g = d.bind fun value => (f value).bind g := by
  induction d with
  | done value => rfl
  | ask question next ih => simp [bind, ih]

instance : LawfulMonad (Dialogue Q A) :=
  LawfulMonad.mk' (Dialogue Q A) (fun d => bind_done d) (fun _ _ => rfl) bind_assoc

/-- Running a sequence is running its parts one after the other. -/
theorem run_bind (handler : Handler Q A σ) (d : Dialogue Q A α) (f : α → Dialogue Q A β)
    (state : σ) :
    (d >>= f).run handler state =
      (f (d.run handler state).1).run handler (d.run handler state).2 := by
  induction d generalizing state with
  | done value => rfl
  | ask question next ih => exact ih (handler question state).1 (handler question state).2

end Dialogue

/-- A question together with the answer that was given to it. -/
abbrev Exchange (Q : Type) (A : Q → Type) : Type :=
  (question : Q) × A question

/-- The handler that answers like `handler` and keeps every exchange, the latest first. -/
def Handler.recording {Q : Type} {A : Q → Type} {σ : Type} (handler : Handler Q A σ) :
    Handler Q A (σ × List (Exchange Q A)) :=
  fun question (state, exchanges) =>
    let (answer, state) := handler question state
    (answer, state, ⟨question, answer⟩ :: exchanges)

end FpgaProgrammer
