import SignalExchange.Proofs.Call

/-! Calls that write one row at most, and write last.

A view shows the rows of a state, each at its place. A call that reads leaves all rows as they
were, and one that writes does so when it fails.
-/

set_option autoImplicit false

namespace SignalExchange

/-- The rows are the same at all places, or at all but one. -/
def OneApart {κ ρ : Type} (before after : κ → ρ) : Prop :=
  ∃ place, ∀ other, other ≠ place → after other = before other

theorem OneApart.refl {κ ρ : Type} [Nonempty κ] (rows : κ → ρ) : OneApart rows rows :=
  ⟨Classical.ofNonempty, fun _ _ => rfl⟩

theorem OneApart.of_eq {κ ρ : Type} [Nonempty κ] {before after : κ → ρ} (same : after = before) :
    OneApart before after := same ▸ OneApart.refl after

namespace Call

variable {ε δ σ κ ρ α β : Type} (rows : σ → κ → ρ)

def Reads (action : ExceptT ε (StateM σ) α) : Prop :=
  ∀ state, rows (outcome action state).2 = rows state

def WritesOnceFrom (state : σ) (action : ExceptT ε (StateM σ) α) : Prop :=
  match outcome action state with
  | (.ok _, after) => OneApart (rows state) (rows after)
  | (.error _, after) => rows after = rows state

def WritesOnce (action : ExceptT ε (StateM σ) α) : Prop := ∀ state, WritesOnceFrom rows state action

/-- The call tells whether it wrote. -/
def AttemptsFrom (state : σ) (action : ExceptT ε (StateM σ) Bool) : Prop :=
  match outcome action state with
  | (.ok true, after) => OneApart (rows state) (rows after)
  | (.ok false, after) => rows after = rows state
  | (.error _, after) => rows after = rows state

def Attempts (action : ExceptT ε (StateM σ) Bool) : Prop :=
  ∀ state, AttemptsFrom rows state action

variable {rows}

/-! Reading -/

theorem Reads.pure (value : α) : Reads rows (pure value : ExceptT ε (StateM σ) α) :=
  fun _ => rfl

theorem Reads.throw (error : ε) : Reads rows (throw error : ExceptT ε (StateM σ) α) :=
  fun _ => rfl

theorem Reads.ofExcept (result : Except ε α) :
    Reads rows (MonadExcept.ofExcept result : ExceptT ε (StateM σ) α) := by
  intro state
  rw [outcome_ofExcept]

theorem Reads.bind {action : ExceptT ε (StateM σ) α} {next : α → ExceptT ε (StateM σ) β}
    (first : Reads rows action) (rest : ∀ value, Reads rows (next value)) :
    Reads rows (action >>= next) := by
  intro state
  have here := first state
  rw [outcome_bind]
  generalize outcome action state = ran at here ⊢
  obtain ⟨result, middle⟩ := ran
  cases result with
  | error error => exact here
  | ok value => exact (rest value middle).trans here

theorem Reads.map {action : ExceptT ε (StateM σ) α} (reads : Reads rows action) (f : α → β) :
    Reads rows (f <$> action) := by
  intro state
  rw [outcome_map]
  exact reads state

theorem Reads.onStore {action : ExceptT StoreError (StateM σ) α} (reads : Reads rows action) :
    Reads rows (ConfigError.onStore action) := by
  intro state
  rw [outcome_onStore]
  exact reads state

/-! Writing -/

theorem Reads.writes [Nonempty κ] {action : ExceptT ε (StateM σ) α}
    (reads : Reads rows action) : WritesOnce rows action := by
  intro state
  have here := reads state
  unfold WritesOnceFrom
  generalize outcome action state = ran at here ⊢
  obtain ⟨result, after⟩ := ran
  cases result with
  | error error => exact here
  | ok value => exact .of_eq here

theorem WritesOnce.throw (error : ε) : WritesOnce rows (throw error : ExceptT ε (StateM σ) α) :=
  fun _ => rfl

theorem Reads.before {action : ExceptT ε (StateM σ) α} {next : α → ExceptT ε (StateM σ) β}
    (reads : Reads rows action) (rest : ∀ value, WritesOnce rows (next value)) :
    WritesOnce rows (action >>= next) := by
  intro state
  have here := reads state
  rw [WritesOnceFrom, outcome_bind]
  generalize outcome action state = ran at here ⊢
  obtain ⟨result, middle⟩ := ran
  cases result with
  | error error => exact here
  | ok value =>
    -- The write is compared with the rows before the reading, which are those behind it.
    have there := rest value middle
    rw [WritesOnceFrom, here] at there
    exact there

theorem WritesOnce.map {action : ExceptT ε (StateM σ) α} (writes : WritesOnce rows action)
    (f : α → β) : WritesOnce rows (f <$> action) := by
  intro state
  have here := writes state
  unfold WritesOnceFrom at here ⊢
  rw [outcome_map]
  generalize outcome action state = ran at here ⊢
  obtain ⟨result, after⟩ := ran
  cases result <;> exact here

theorem WritesOnce.onStore {action : ExceptT StoreError (StateM σ) α}
    (writes : WritesOnce rows action) : WritesOnce rows (ConfigError.onStore action) := by
  intro state
  have here := writes state
  unfold WritesOnceFrom at here ⊢
  rw [outcome_onStore]
  generalize outcome action state = ran at here ⊢
  obtain ⟨result, after⟩ := ran
  cases result <;> exact here

theorem Attempts.onStore {action : ExceptT StoreError (StateM σ) Bool}
    (attempts : Attempts rows action) : Attempts rows (ConfigError.onStore action) := by
  intro state
  have here := attempts state
  unfold AttemptsFrom at here ⊢
  rw [outcome_onStore]
  generalize outcome action state = ran at here ⊢
  obtain ⟨result, after⟩ := ran
  rcases result with error | wrote
  · exact here
  · cases wrote <;> exact here

theorem Attempts.orThrow {action : ExceptT ε (StateM σ) Bool} (attempts : Attempts rows action)
    (value : α) (error : ε) :
    WritesOnce rows (action >>= fun wrote => if wrote then pure value else throw error) := by
  intro state
  have here := attempts state
  unfold AttemptsFrom at here
  rw [WritesOnceFrom, outcome_bind]
  generalize outcome action state = ran at here ⊢
  obtain ⟨result, after⟩ := ran
  rcases result with first | wrote
  · exact here
  · cases wrote <;> exact here

end Call

end SignalExchange
