import SignalExchange.Proofs.Call

/-! Programs whose calls to a shared state are taken one at a time.

Between two calls of a program, other programs may change the state. A program that nobody
interrupts does what it does as a single call.
-/

set_option autoImplicit false

namespace SignalExchange

open Call

/-- A program that is done, or one whose first call changes a state and goes on from what it found. -/
inductive Steps (σ α : Type) : Type where
  | done (value : α)
  | call (after : σ → σ) (next : σ → Steps σ α)

namespace Steps

variable {ε σ α β : Type}

/-- An action that is one call. -/
def atomic (action : StateM σ α) : Steps σ α :=
  .call (fun state => (action.run state).2) fun state => .done (action.run state).1

def bind : Steps σ α → (α → Steps σ β) → Steps σ β
  | .done value, rest => rest value
  | .call after next, rest => .call after fun state => (next state).bind rest

instance : Monad (Steps σ) where
  pure := .done
  bind := bind

theorem done_bind (value : α) (rest : α → Steps σ β) : (done value >>= rest) = rest value := rfl

theorem call_bind (after : σ → σ) (next : σ → Steps σ α) (rest : α → Steps σ β) :
    (call after next >>= rest) = call after fun state => next state >>= rest := rfl

theorem bind_done (steps : Steps σ α) : (steps >>= done) = steps := by
  induction steps with
  | done value => rfl
  | call after next ih => rw [call_bind, funext ih]

theorem bind_bind {γ : Type} (steps : Steps σ α) (rest : α → Steps σ β) (last : β → Steps σ γ) :
    (steps >>= rest >>= last) = steps >>= fun value => rest value >>= last := by
  induction steps with
  | done value => rfl
  | call after next ih => simp only [call_bind, ih]

instance : LawfulMonad (Steps σ) :=
  LawfulMonad.mk' (Steps σ) bind_done done_bind bind_bind

/-! Calls that may fail -/

/-- A call to a state that may fail. -/
def once (action : ExceptT ε (StateM σ) α) : ExceptT ε (Steps σ) α :=
  ExceptT.mk (atomic action.run)

theorem run_onStore_bind (action : ExceptT StoreError (StateM σ) α)
    (rest : α → ExceptT ConfigError (Steps σ) β) :
    (ConfigError.onStore (once action) >>= rest).run =
      .call (fun state => (outcome action state).2) fun state =>
        match (outcome action state).1 with
        | .ok value => (rest value).run
        | .error error => .done (.error (.storage error)) := by
  refine congrArg (call _) (funext fun state => ?_)
  change (done (outcome action state).1 >>= _ >>= _) = _
  cases (outcome action state).1 with
  | ok value => rfl
  | error error => rfl

/-! Programs that nobody interrupts -/

/-- All calls of the program, one right after another. -/
def alone : Steps σ α → StateM σ α
  | .done value => pure value
  | .call after next => fun state => (next state).alone (after state)

theorem alone_bind (steps : Steps σ α) (rest : α → Steps σ β) (state : σ) :
    (steps >>= rest).alone state =
      (rest (steps.alone state).1).alone (steps.alone state).2 := by
  induction steps generalizing state with
  | done value => rfl
  | call after next ih => exact ih state (after state)

/-- Alone, the program does what the action does as a whole. -/
def Agrees (program : ExceptT ε (Steps σ) α) (action : ExceptT ε (StateM σ) α) : Prop :=
  ∀ state, program.run.alone state = outcome action state

theorem Agrees.pure (value : α) :
    Agrees (pure value : ExceptT ε (Steps σ) α) (pure value) := fun _ => rfl

theorem Agrees.throw (error : ε) :
    Agrees (throw error : ExceptT ε (Steps σ) α) (throw error) := fun _ => rfl

theorem Agrees.ofExcept (result : Except ε α) :
    Agrees (MonadExcept.ofExcept result : ExceptT ε (Steps σ) α) (MonadExcept.ofExcept result) := by
  cases result with
  | ok value => exact .pure value
  | error error => exact .throw error

theorem Agrees.onStore (action : ExceptT StoreError (StateM σ) α) :
    Agrees (ConfigError.onStore (once action)) (ConfigError.onStore action) := fun _ => rfl

theorem Agrees.bind {program : ExceptT ε (Steps σ) α} {action : ExceptT ε (StateM σ) α}
    {rest : α → ExceptT ε (Steps σ) β} {next : α → ExceptT ε (StateM σ) β}
    (first : Agrees program action) (others : ∀ value, Agrees (rest value) (next value)) :
    Agrees (program >>= rest) (action >>= next) := by
  intro state
  rw [ExceptT.run_bind, alone_bind, first, outcome_bind]
  rcases outcome action state with ⟨result, middle⟩
  cases result with
  | ok value => exact others value middle
  | error error => rfl

end Steps

end SignalExchange
