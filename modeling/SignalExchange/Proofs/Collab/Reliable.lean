import SignalExchange.Proofs.Collab.Lifetime
import SignalExchange.Proofs.Collab.Verdict

/-! Edits in stores whose calls succeed.

Such a store finds what it holds, creates what is new and updates what is there. So an edit comes to
the verdict on the record that is held, and writes the record of the verdict or nothing.
-/

set_option autoImplicit false

namespace SignalExchange

open Call

namespace CollabStore

/-- No call fails but for a name that is taken or missing. -/
structure Reliable {σ : Type} (store : CollabStore (StateM σ)) (view : RecordView σ) : Prop
    extends Faithful store view where
  finds {state : σ} (ready : view.ready state) (name : String) :
    ∃ after, outcome (store.find? name) state = (.ok (view.held state name), after)
  creates {collab : Collab} {state : σ} (ready : view.ready state) (fits : view.fits collab)
    (free : view.held state collab.name = none) :
    ∃ after, outcome (store.create collab) state = (.ok (), after)
  updates {collab : Collab} {state : σ} (ready : view.ready state) (fits : view.fits collab)
    (taken : view.held state collab.name ≠ none) :
    ∃ after, outcome (store.update collab) state = (.ok (), after)

def afterSearch {σ : Type} (store : CollabStore (StateM σ)) (name : String) (state : σ) : σ :=
  (outcome (store.find? name) state).2

end CollabStore

/-- What a verdict leaves: the record that it made is written, and an error writes nothing. -/
def RecordView.Settles {σ : Type} (view : RecordView σ) (before after : σ) :
    Except ConfigError Outcome → Prop
  | .ok done => view.Shows after ((Change.written done.collab).onto (view.held before))
  | .error _ => after = before

section

variable {σ : Type} {store : CollabStore (StateM σ)} {view : RecordView σ}
  (reliable : store.Reliable view) {schema : Schema} {state : σ} (ready : view.ready state)

include reliable ready

theorem shows_afterSearch (name : String) :
    view.Shows (store.afterSearch name state) (view.held state) := (reliable.find ready rfl).1

theorem held_of_settles {name : String} {after : σ} {done : Outcome}
    (settles : view.Settles (store.afterSearch name state) after (.ok done)) :
    view.held after done.collab.name = some done.collab ∧
      ∀ other ≠ done.collab.name, view.held after other = view.held state other := by
  rw [RecordView.Settles, (shows_afterSearch reliable ready name).2] at settles
  rw [settles.2]
  exact ⟨Change.written_onto_self _, fun other differs => Change.onto_of_ne _ differs.symm⟩

theorem unchanged_of_settles {name : String} {after : σ} {error : ConfigError}
    (settles : view.Settles (store.afterSearch name state) after (.error error)) :
    after = store.afterSearch name state ∧ view.held after = view.held state := by
  cases settles
  exact ⟨rfl, (shows_afterSearch reliable ready name).2⟩

theorem outcome_createNew (edit : EditSet)
    (fits : ∀ collab, Collab.construct schema edit = .ok collab → view.fits collab)
    (free : ∀ collab, Collab.construct schema edit = .ok collab →
      view.held state collab.name = none) :
    ∃ after, outcome (store.createNew schema edit) state =
        ((Collab.construct schema edit).map .created, after) ∧
      view.Settles state after ((Collab.construct schema edit).map .created) := by
  rw [CollabStore.createNew, outcome_bind, outcome_ofExcept]
  cases constructed : Collab.construct schema edit with
  | error error => exact ⟨state, rfl, rfl⟩
  | ok collab =>
    have fit := fits collab constructed
    obtain ⟨after, called⟩ := reliable.creates ready fit (free collab constructed)
    exact ⟨after, by simp [called], (reliable.create ready fit called).2⟩

theorem outcome_updateExisting {existing : Collab} (edit : EditSet)
    (fits : ∀ collab, existing.assignAll schema edit = .ok collab → view.fits collab)
    (same : existing.api = schema.api) (taken : view.held state existing.name ≠ none) :
    ∃ after, outcome (store.updateExisting schema existing edit) state =
        ((existing.assignAll schema edit).map .updated, after) ∧
      view.Settles state after ((existing.assignAll schema edit).map .updated) := by
  rw [CollabStore.updateExisting]
  simp only [same, ne_eq, not_true_eq_false, if_false, outcome_bind, outcome_pure,
    outcome_ofExcept]
  cases assigned : existing.assignAll schema edit with
  | error error => exact ⟨state, rfl, rfl⟩
  | ok collab =>
    have fit := fits collab assigned
    rw [← Collab.name_of_assignAll assigned] at taken
    obtain ⟨after, called⟩ := reliable.updates ready fit taken
    exact ⟨after, by simp [called], (reliable.update ready fit called).2⟩

theorem outcome_of_verdict (edit : ResolvedEdit) (within : edit.Within view.fits schema)
    (stored : ∀ collab, view.held state edit.identifier = some collab →
      collab.name = edit.identifier)
    (titled : edit.create = true → edit.edit.get? "name" = some (.string edit.identifier)) :
    ∃ after, outcome (store.apply schema edit) state =
        (edit.verdict schema (view.held state edit.identifier), after) ∧
      view.Settles (store.afterSearch edit.identifier state) after
        (edit.verdict schema (view.held state edit.identifier)) := by
  obtain ⟨middle, search⟩ := reliable.finds ready edit.identifier
  obtain ⟨isReady, unchanged⟩ : view.Shows middle (view.held state) :=
    (reliable.find ready search).1
  rw [CollabStore.afterSearch, CollabStore.apply, outcome_bind, outcome_onStore, search]
  cases found : view.held state edit.identifier with
  | some existing =>
    cases create : edit.create with
    | true =>
      refine ⟨middle, ?_, ?_⟩
      · simp [ResolvedEdit.verdict, create]
      · simp [ResolvedEdit.verdict, create, RecordView.Settles]
    | false =>
      by_cases same : existing.api = schema.api
      -- The row that is updated is the one that was found, so it is there.
      · have taken : view.held middle existing.name ≠ none := by
          rw [unchanged, stored existing found, found]
          exact Option.some_ne_none existing
        have fits (collab : Collab) :=
          @ResolvedEdit.Within.updated _ _ _ _ collab within create
            (view.fits_of_held ready found) same
        simpa [ResolvedEdit.verdict, create, same] using
          outcome_updateExisting reliable isReady edit.edit fits same taken
      · refine ⟨middle, ?_, ?_⟩
        · simp [ResolvedEdit.verdict, create, same, CollabStore.updateExisting]
        · simp [ResolvedEdit.verdict, create, same, RecordView.Settles]
  | none =>
    cases create : edit.create with
    | true =>
      -- The record takes the name that was looked for in vain.
      have free (collab : Collab) (constructed : Collab.construct schema edit.edit = .ok collab) :
          view.held middle collab.name = none := by
        have same := (titled create).symm.trans (Collab.named_of_construct constructed)
        rw [unchanged, ← Json.string.inj (Option.some.inj same), found]
      simpa [ResolvedEdit.verdict, create] using
        outcome_createNew reliable isReady edit.edit (fun _ => within.created create) free
    | false =>
      refine ⟨middle, ?_, ?_⟩
      · simp [ResolvedEdit.verdict, create]
      · simp [ResolvedEdit.verdict, create, RecordView.Settles]

end

theorem RecordTable.store_reliable : RecordTable.store.Reliable RecordTable.view where
  toFaithful := store_faithful
  finds {state} _ _ := ⟨state, rfl⟩
  creates {collab state} _ _ free := by
    have free : state.find? collab.name = none := free
    refine ⟨state.put collab, ?_⟩
    simp [store, outcome_bind, free]
  updates {collab state} _ _ taken := by
    have taken : state.find? collab.name ≠ none := taken
    refine ⟨state.put collab, ?_⟩
    simp [store, outcome_bind, taken]

end SignalExchange
