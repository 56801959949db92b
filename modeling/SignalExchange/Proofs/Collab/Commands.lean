import SignalExchange.Proofs.Collab.Verdict

/-! What a command does to the records of any store.

A store that gives back records as they were written is, for the rules of records, a map from names
to records. A command fails and leaves the map, or changes it at the name of one record.
-/

set_option autoImplicit false

namespace SignalExchange

open Call

namespace Change

/-- The records after a change. -/
def onto (change : Change) (held : String → Option Collab) : String → Option Collab :=
  fun name => change.after name (held name)

variable {held : String → Option Collab}

theorem onto_of_ne (change : Change) {name : String} (differs : change.collab.name ≠ name) :
    change.onto held name = held name := by
  cases change <;> exact if_neg differs

theorem written_onto_self (collab : Collab) :
    (written collab).onto held collab.name = some collab := if_pos rfl

theorem deleted_onto_self (collab : Collab) :
    (deleted collab).onto held collab.name = none := if_pos rfl

end Change

/-- Every record that the command makes or edits is under the schema of its exchange. -/
def RecordCommand.Under (schemas : String → Option (List Field)) : RecordCommand → Prop
  | apply api own _ => schemas api = some own
  | importAs _ api own _ => schemas api = some own
  | remove _ => True

/-- The records that can be seen in the states of a store. The store is asked to give back what was
written to it only in states that are ready, and only for records that fit. -/
structure RecordView (σ : Type) where
  held : σ → String → Option Collab
  ready : σ → Prop
  fits : Collab → Prop
  fits_of_held {state : σ} {name : String} {collab : Collab} (isReady : ready state)
    (found : held state name = some collab) : fits collab

namespace RecordView

variable {σ : Type}

def total (held : σ → String → Option Collab) : RecordView σ where
  held := held
  ready _ := True
  fits _ := True
  fits_of_held _ _ := trivial

/-- The state is ready, and these are its records. -/
def Shows (view : RecordView σ) (state : σ) (records : String → Option Collab) : Prop :=
  view.ready state ∧ view.held state = records

end RecordView

/-- Whatever the edit makes of a record that fits, or of none, fits. -/
def ResolvedEdit.Within (fits : Collab → Prop) (schema : Schema) (edit : ResolvedEdit) : Prop :=
  ∀ held done, (∀ existing, held = some existing → fits existing) →
    edit.verdict schema held = .ok done → fits done.collab

def RecordCommand.Within (fits : Collab → Prop) : RecordCommand → Prop
  | apply api own edit => edit.Within fits (.ofFields api own)
  | importAs name api own fields =>
    ResolvedEdit.Within fits (.ofFields api own) ⟨name, fields.importedAs name api, true⟩
  | remove _ => True

namespace CollabStore

/-- The store gives back records as they were written. A call that fails leaves all of them. -/
structure Faithful {σ : Type} (store : CollabStore (StateM σ)) (view : RecordView σ) : Prop where
  find {name : String} {state after : σ} {result : Except StoreError (Option Collab)}
    (ready : view.ready state) (ran : outcome (store.find? name) state = (result, after)) :
    view.Shows after (view.held state) ∧ ∀ found, result = .ok found → found = view.held state name
  create {collab : Collab} {state after : σ} {result : Except StoreError Unit}
    (ready : view.ready state) (fits : view.fits collab)
    (ran : outcome (store.create collab) state = (result, after)) :
    match result with
    | .error _ => view.Shows after (view.held state)
    | .ok _ => view.held state collab.name = none ∧
        view.Shows after ((Change.written collab).onto (view.held state))
  update {collab : Collab} {state after : σ} {result : Except StoreError Unit}
    (ready : view.ready state) (fits : view.fits collab)
    (ran : outcome (store.update collab) state = (result, after)) :
    match result with
    | .error _ => view.Shows after (view.held state)
    | .ok _ => view.held state collab.name ≠ none ∧
        view.Shows after ((Change.written collab).onto (view.held state))
  delete {collab : Collab} {state after : σ} {result : Except StoreError Bool}
    (ready : view.ready state) (ran : outcome (store.delete collab) state = (result, after)) :
    match result with
    | .ok true => view.Shows after ((Change.deleted collab).onto (view.held state))
    | _ => view.Shows after (view.held state)

end CollabStore

/-- What a command can do to the records that a store holds. -/
inductive Performs (schemas : String → Option (List Field)) (held : String → Option Collab) :
    RecordCommand → Except ConfigError Change → (String → Option Collab) → Prop where
  | failed (command : RecordCommand) (error : ConfigError) :
      Performs schemas held command (.error error) held
  | created {command : RecordCommand} {api : String} {own : List Field} {edit : EditSet}
      {collab : Collab} (declared : schemas api = some own)
      (constructed : Collab.construct (Schema.ofFields api own) edit = .ok collab)
      (free : held collab.name = none) :
      Performs schemas held command (.ok (.written collab)) ((Change.written collab).onto held)
  | edited {command : RecordCommand} {name api : String} {own : List Field} {edit : EditSet}
      {existing collab : Collab} (declared : schemas api = some own)
      (found : held name = some existing) (same : existing.api = api)
      (assigned : existing.assignAll (Schema.ofFields api own) edit = .ok collab) :
      Performs schemas held command (.ok (.written collab)) ((Change.written collab).onto held)
  | removed {name : String} {collab : Collab} (found : held name = some collab) :
      Performs schemas held (.remove name) (.ok (.deleted collab))
        ((Change.deleted collab).onto held)

/-- A command leaves a state that is ready, with the records that it can leave. -/
def RecordView.Performed {σ : Type} (view : RecordView σ)
    (schemas : String → Option (List Field)) (command : RecordCommand)
    (result : Except ConfigError Change) (state after : σ) : Prop :=
  ∃ records, view.Shows after records ∧ Performs schemas (view.held state) command result records

namespace ResolvedEdit.Within

variable {fits : Collab → Prop} {schema : Schema} {edit : ResolvedEdit} {existing collab : Collab}

theorem created (within : edit.Within fits schema) (create : edit.create = true)
    (constructed : Collab.construct schema edit.edit = .ok collab) : fits collab :=
  within none (.created collab) nofun (by simp [verdict, create, constructed])

theorem updated (within : edit.Within fits schema) (update : edit.create = false)
    (before : fits existing) (same : existing.api = schema.api)
    (assigned : existing.assignAll schema edit.edit = .ok collab) : fits collab := by
  refine within (some existing) (.updated collab) ?_ (by simp [verdict, update, same, assigned])
  rintro _ ⟨⟩
  exact before

theorem total : edit.Within (fun _ => True) schema := fun _ _ _ _ => trivial

end ResolvedEdit.Within

theorem RecordCommand.within_total (command : RecordCommand) :
    command.Within fun _ => True := by
  cases command with
  | apply | importAs => exact .total
  | remove => trivial

section

variable {σ : Type} {store : CollabStore (StateM σ)} {view : RecordView σ}
  (faithful : store.Faithful view) {state after : σ}

include faithful

theorem find_cases {α : Type} {name : String}
    {next : Option Collab → ExceptT ConfigError (StateM σ) α} {result : Except ConfigError α}
    (ready : view.ready state)
    (ran : outcome (ConfigError.onStore (store.find? name) >>= next) state = (result, after)) :
    (∃ error, result = .error error ∧ view.Shows after (view.held state)) ∨
      ∃ middle, view.Shows middle (view.held state) ∧
        outcome (next (view.held middle name)) middle = (result, after) := by
  rw [outcome_bind, outcome_onStore] at ran
  rcases called : outcome (store.find? name) state with ⟨error | found, middle⟩
  · rw [called] at ran
    cases ran
    exact .inl ⟨_, rfl, (faithful.find ready called).1⟩
  · obtain ⟨shows, gives⟩ := faithful.find ready called
    rw [called] at ran
    refine .inr ⟨middle, shows, ?_⟩
    rw [shows.2, ← gives found rfl]
    exact ran

theorem createNew_cases {schema : Schema} {edit : EditSet} {result : Except ConfigError Outcome}
    (ready : view.ready state)
    (fits : ∀ collab, Collab.construct schema edit = .ok collab → view.fits collab)
    (ran : outcome (store.createNew schema edit) state = (result, after)) :
    (∃ error, result = .error error ∧ view.Shows after (view.held state)) ∨
      ∃ collab, result = .ok (.created collab) ∧ Collab.construct schema edit = .ok collab ∧
        view.held state collab.name = none ∧
        view.Shows after ((Change.written collab).onto (view.held state)) := by
  rw [CollabStore.createNew, outcome_bind, outcome_ofExcept] at ran
  cases constructed : Collab.construct schema edit with
  | error error =>
    rw [constructed] at ran
    cases ran
    exact .inl ⟨error, rfl, ready, rfl⟩
  | ok collab =>
    simp only [constructed, outcome_bind, outcome_onStore] at ran
    rcases called : outcome (store.create collab) state with ⟨_ | _, left⟩
    · rw [called] at ran
      cases ran
      exact .inl ⟨_, rfl, faithful.create ready (fits collab constructed) called⟩
    · rw [called] at ran
      cases ran
      exact .inr ⟨collab, rfl, rfl, faithful.create ready (fits collab constructed) called⟩

theorem updateExisting_cases {schema : Schema} {existing : Collab} {edit : EditSet}
    {result : Except ConfigError Outcome} (ready : view.ready state)
    (fits : ∀ collab, existing.api = schema.api → existing.assignAll schema edit = .ok collab →
      view.fits collab)
    (ran : outcome (store.updateExisting schema existing edit) state = (result, after)) :
    (∃ error, result = .error error ∧ view.Shows after (view.held state)) ∨
      ∃ collab, result = .ok (.updated collab) ∧ existing.api = schema.api ∧
        existing.assignAll schema edit = .ok collab ∧
        view.Shows after ((Change.written collab).onto (view.held state)) := by
  rw [CollabStore.updateExisting] at ran
  -- The exchange is checked before anything is assigned.
  by_cases same : existing.api = schema.api
  · simp only [same, ne_eq, not_true_eq_false, if_false, outcome_bind, outcome_ofExcept,
      outcome_pure] at ran
    cases assigned : existing.assignAll schema edit with
    | error error =>
      rw [assigned] at ran
      cases ran
      exact .inl ⟨error, rfl, ready, rfl⟩
    | ok collab =>
      simp only [assigned, outcome_onStore] at ran
      rcases called : outcome (store.update collab) state with ⟨_ | _, left⟩
      · rw [called] at ran
        cases ran
        exact .inl ⟨_, rfl, faithful.update ready (fits collab same assigned) called⟩
      · rw [called] at ran
        cases ran
        exact .inr ⟨collab, rfl, same, rfl,
          (faithful.update ready (fits collab same assigned) called).2⟩
  · rw [if_pos same] at ran
    cases ran
    exact .inl ⟨_, rfl, ready, rfl⟩

variable {schemas : String → Option (List Field)} (ready : view.ready state)

include ready

theorem performs_created {command : RecordCommand} {api : String} {own : List Field}
    {edit : EditSet} (declared : schemas api = some own)
    (fits : ∀ collab, Collab.construct (.ofFields api own) edit = .ok collab → view.fits collab)
    {result : Except ConfigError Outcome}
    (ran : outcome (store.createNew (.ofFields api own) edit) state = (result, after)) :
    view.Performed schemas command (result.map fun done => .written done.collab) state after := by
  rcases createNew_cases faithful ready fits ran with
    ⟨error, rfl, shows⟩ | ⟨collab, rfl, constructed, free, shows⟩
  · exact ⟨_, shows, .failed command error⟩
  · exact ⟨_, shows, .created declared constructed free⟩

theorem performs_apply {api : String} {own : List Field} {edit : ResolvedEdit}
    (declared : schemas api = some own) (within : edit.Within view.fits (.ofFields api own))
    {result : Except ConfigError Outcome}
    (ran : outcome (store.apply (.ofFields api own) edit) state = (result, after)) :
    view.Performed schemas (.apply api own edit) (result.map fun done => .written done.collab)
      state after := by
  rcases find_cases faithful ready ran with ⟨error, rfl, shows⟩ | ⟨middle, ⟨isReady, same⟩, ran⟩
  · exact ⟨_, shows, .failed _ error⟩
  · rw [RecordView.Performed, ← same]
    cases found : view.held middle edit.identifier with
    | none =>
      cases create : edit.create with
      | true =>
        simp only [found, create] at ran
        exact performs_created faithful isReady declared (fun _ => within.created create) ran
      | false =>
        simp only [found, create] at ran
        cases ran
        exact ⟨_, ⟨isReady, rfl⟩, .failed _ _⟩
    | some existing =>
      cases create : edit.create with
      | true =>
        simp only [found, create] at ran
        cases ran
        exact ⟨_, ⟨isReady, rfl⟩, .failed _ _⟩
      | false =>
        simp only [found, create] at ran
        have before := view.fits_of_held isReady found
        have fits (collab : Collab) :=
          @ResolvedEdit.Within.updated _ _ _ _ collab within create before
        rcases updateExisting_cases faithful isReady fits ran with
          ⟨error, rfl, shows⟩ | ⟨collab, rfl, bound, assigned, shows⟩
        · exact ⟨_, shows, .failed _ error⟩
        · exact ⟨_, shows, .edited declared found bound assigned⟩

theorem performs_importAs {name api : String} {own : List Field} {fields : EditSet}
    (declared : schemas api = some own)
    (within : ResolvedEdit.Within view.fits (.ofFields api own)
      ⟨name, fields.importedAs name api, true⟩)
    {result : Except ConfigError Collab}
    (ran : outcome (store.importAs name (.ofFields api own) fields) state = (result, after)) :
    view.Performed schemas (.importAs name api own fields) (result.map .written) state after := by
  rcases find_cases faithful ready ran with ⟨error, rfl, shows⟩ | ⟨middle, ⟨isReady, same⟩, ran⟩
  · exact ⟨_, shows, .failed _ error⟩
  · rw [RecordView.Performed, ← same]
    cases found : view.held middle name with
    | some existing =>
      rw [found] at ran
      cases ran
      exact ⟨_, ⟨isReady, rfl⟩, .failed _ _⟩
    | none =>
      simp only [found, Option.isSome_none, Bool.false_eq_true, if_false, outcome_bind] at ran
      have fits (collab : Collab) := @ResolvedEdit.Within.created _ _ _ collab within rfl
      split at ran
      next done left made =>
        cases ran
        exact performs_created faithful isReady declared fits made
      next error left made =>
        cases ran
        exact performs_created faithful isReady declared fits made

theorem performs_remove {name : String} {result : Except ConfigError Collab}
    (ran : outcome (store.remove name) state = (result, after)) :
    view.Performed schemas (.remove name) (result.map .deleted) state after := by
  rcases find_cases faithful ready ran with ⟨error, rfl, shows⟩ | ⟨middle, ⟨isReady, same⟩, ran⟩
  · exact ⟨_, shows, .failed _ error⟩
  · rw [RecordView.Performed, ← same]
    cases found : view.held middle name with
    | none =>
      rw [found] at ran
      cases ran
      exact ⟨_, ⟨isReady, rfl⟩, .failed _ _⟩
    | some collab =>
      simp only [found, outcome_bind, outcome_onStore] at ran
      rcases called : outcome (store.delete collab) middle with ⟨error | deleted, left⟩
      · have shows : view.Shows left (view.held middle) := faithful.delete isReady called
        rw [called] at ran
        cases ran
        exact ⟨_, shows, .failed _ _⟩
      · cases deleted with
        | false =>
          have shows : view.Shows left (view.held middle) := faithful.delete isReady called
          rw [called] at ran
          cases ran
          exact ⟨_, shows, .failed _ _⟩
        | true =>
          have shows : view.Shows left ((Change.deleted collab).onto (view.held middle)) :=
            faithful.delete isReady called
          rw [called] at ran
          cases ran
          exact ⟨_, shows, .removed found⟩

theorem performs_of_outcome {command : RecordCommand} (under : command.Under schemas)
    (within : command.Within view.fits) {result : Except ConfigError Change}
    (ran : outcome (command.perform store) state = (result, after)) :
    view.Performed schemas command result state after := by
  cases command with
  | apply api own edit =>
    simp only [RecordCommand.perform, bind_pure_comp, outcome_map, Prod.mk.injEq] at ran
    obtain ⟨rfl, rfl⟩ := ran
    exact performs_apply faithful ready under within rfl
  | importAs name api own fields =>
    simp only [RecordCommand.perform, bind_pure_comp, outcome_map, Prod.mk.injEq] at ran
    obtain ⟨rfl, rfl⟩ := ran
    exact performs_importAs faithful ready under within rfl
  | remove name =>
    simp only [RecordCommand.perform, bind_pure_comp, outcome_map, Prod.mk.injEq] at ran
    obtain ⟨rfl, rfl⟩ := ran
    exact performs_remove faithful ready rfl

end

end SignalExchange
