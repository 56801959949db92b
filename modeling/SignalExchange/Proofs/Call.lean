import SignalExchange.ConfigError
import SignalExchange.Proofs.Except

/-! Calls on a state, any of which may fail.

A call gives a result together with the state that it leaves. A call that only reads leaves the
state as it was, and a transaction does so when it fails.
-/

set_option autoImplicit false

namespace SignalExchange

namespace Call

variable {ε δ σ α β : Type}

/-- The result of a call, and the state after it. -/
def outcome (action : ExceptT ε (StateM σ) α) (state : σ) : Except ε α × σ := action.run.run state

theorem outcome_bind (action : ExceptT ε (StateM σ) α) (next : α → ExceptT ε (StateM σ) β)
    (state : σ) :
    outcome (action >>= next) state =
      match outcome action state with
      | (.ok value, after) => outcome (next value) after
      | (.error error, after) => (.error error, after) := by
  simp only [outcome, ExceptT.run_bind, StateT.run_bind]
  rcases h : action.run.run state with ⟨result, after⟩
  cases result <;> rfl

theorem outcome_bind_eq_ok {action : ExceptT ε (StateM σ) α} {next : α → ExceptT ε (StateM σ) β}
    {state final : σ} {result : β} :
    outcome (action >>= next) state = (.ok result, final) ↔
      ∃ value middle, outcome action state = (.ok value, middle) ∧
        outcome (next value) middle = (.ok result, final) := by
  rw [outcome_bind]
  rcases outcome action state with ⟨first, middle⟩
  cases first <;> simp

@[simp] theorem outcome_pure (value : α) (state : σ) :
    outcome (pure value : ExceptT ε (StateM σ) α) state = (.ok value, state) := rfl

@[simp] theorem outcome_throw (error : ε) (state : σ) :
    outcome (throw error : ExceptT ε (StateM σ) α) state = (.error error, state) := rfl

@[simp] theorem outcome_get (state : σ) :
    outcome (get : ExceptT ε (StateM σ) σ) state = (.ok state, state) := rfl

@[simp] theorem outcome_set (after state : σ) :
    outcome (set after : ExceptT ε (StateM σ) PUnit) state = (.ok ⟨⟩, after) := rfl

@[simp] theorem outcome_modify (f : σ → σ) (state : σ) :
    outcome (modify f : ExceptT ε (StateM σ) PUnit) state = (.ok ⟨⟩, f state) := rfl

@[simp] theorem outcome_map (f : α → β) (action : ExceptT ε (StateM σ) α) (state : σ) :
    outcome (f <$> action) state = ((outcome action state).1.map f, (outcome action state).2) := by
  rw [map_eq_pure_bind, outcome_bind]
  rcases outcome action state with ⟨result, after⟩
  cases result <;> rfl

@[simp] theorem outcome_ofExcept (result : Except ε α) (state : σ) :
    outcome (MonadExcept.ofExcept result : ExceptT ε (StateM σ) α) state = (result, state) := by
  cases result <;> rfl

@[simp] theorem outcome_onStore (action : ExceptT StoreError (StateM σ) α) (state : σ) :
    outcome (ConfigError.onStore action) state =
      ((outcome action state).1.mapError .storage, (outcome action state).2) := by
  simp only [ConfigError.onStore, outcome, ExceptT.run_adapt]
  rfl

end Call

end SignalExchange
