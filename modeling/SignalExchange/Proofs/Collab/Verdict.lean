import SignalExchange.Proofs.Collab.Authored
import SignalExchange.Proofs.Collab.Documents

/-! What the rules for records decide about an edit.

In a database whose rows are under the names of their records, a search gives a record of the name
that was searched for. So the verdict on that record is all that an edit comes to: the store takes
what the verdict writes.
-/

set_option autoImplicit false

namespace SignalExchange

open Call Database

/-- What becomes of an edit when there is such a record under its identifier, or none. -/
def ResolvedEdit.verdict (schema : Schema) (edit : ResolvedEdit) :
    Option Collab → Except ConfigError Outcome
  | some existing =>
    if edit.create then .error (.duplicateCollab edit.identifier)
    else if existing.api = schema.api then
      (existing.assignAll schema edit.edit).map .updated
    else .error (.crossApi existing.api schema.api)
  | none =>
    if edit.create then (Collab.construct schema edit.edit).map .created
    else .error (.editTargetMissing edit.identifier)

namespace Collab

theorem newName_eq_ok {edit : EditSet} {name : String} :
    newName edit = .ok name ↔ edit.get? "name" = some (.string name) ∧ name ≠ "" := by
  unfold newName
  split
  next word given =>
    by_cases empty : word = ""
    · subst empty
      simp only [if_true, reduceCtorEq, false_iff, given]
      rintro ⟨same, notEmpty⟩
      cases same
      exact notEmpty rfl
    · simp only [empty, if_false, Except.ok.injEq, given, Option.some.injEq, Json.string.injEq]
      exact ⟨fun same => ⟨same, same ▸ empty⟩, And.left⟩
  next other notText given =>
    simp only [reduceCtorEq, false_iff, given]
    rintro ⟨same, -⟩
    cases same
    exact notText name rfl
  next none => simp [none]

theorem named_of_construct {schema : Schema} {edit : EditSet} {collab : Collab}
    (constructed : construct schema edit = .ok collab) :
    edit.get? "name" = some (.string collab.name) := by
  obtain ⟨-, name, named, fields⟩ := construct_eq_ok.1 constructed
  have kept : collab.name = name := by
    refine Except.foldlM_preserves (P := fun kept => kept.name = name) ?_ rfl fields
    intro _ _ _ same started
    obtain ⟨_, assigned⟩ := assign_of_startField started
    exact (name_of_assign assigned).trans same
  rw [kept]
  exact (newName_eq_ok.1 named).1

end Collab

namespace Database

/-- What a search for a name can come to, given the rows of the records. -/
inductive Sought (rows : Table CollabRow) (name : String) :
    Except StoreError (Option Collab) → Prop where
  | absent (free : Ascending.find? name rows = none) : Sought rows name (.ok none)
  | damaged (message : String) :
      Sought rows name (.error (.serialization ("Failed to parse collab: " ++ message)))
  | found {collab : Collab} (taken : Ascending.find? name rows ≠ none)
      (named : collab.name = name) (formed : collab.Formed) : Sought rows name (.ok (some collab))

theorem Sought.named {rows : Table CollabRow} {name : String} {held : Option Collab}
    (sought : Sought rows name (.ok held)) : ∀ collab, held = some collab → collab.name = name := by
  cases sought with
  | absent => exact nofun
  | found _ named _ =>
    intro collab same
    cases same
    exact named

variable {database : Database} {rows : Table CollabRow}

def withRecord (database : Database) (rows : Table CollabRow) (collab : Collab) : Database :=
  { database with collabs := some (Ascending.insert collab.name collab.row rows) }

theorem Titled.sought (titled : database.Titled) (name : String) :
    ∃ rows result, database.collabs = some rows ∧
      outcome (collabStore.find? name) database = (result, database) ∧
      Sought rows name result := by
  obtain ⟨rows, there, ascending, each⟩ := titled
  have search : outcome (collabStore.find? name) database =
      outcome (findCollab name) database := rfl
  simp only [findCollab, outcome_bind, outcome_collabRows_of_some there] at search
  cases found : Ascending.find? name rows with
  | none =>
    simp only [found] at search
    exact ⟨rows, _, there, search, .absent found⟩
  | some row =>
    simp only [found, outcome_bind, outcome_ofExcept] at search
    obtain ⟨collab, same⟩ := each _ ((Ascending.find?_eq_some_iff ascending name row).1 found)
    obtain ⟨rfl, rfl⟩ := Prod.mk.inj same
    -- A row was written from a record, but its text may be too deep to be read back.
    cases read : Collab.read collab.text with
    | error error =>
      have damaged : collab.row.read =
          .error (.serialization ("Failed to parse collab: " ++ error.message)) := by
        rw [CollabRow.read, Collab.row, read]
        rfl
      rw [damaged] at search
      exact ⟨rows, _, there, search, .damaged error.message⟩
    | ok stored =>
      have readable : collab.row.read = .ok stored := by
        rw [CollabRow.read, Collab.row, read]
        rfl
      rw [readable] at search
      exact ⟨rows, _, there, search, .found (by simp [found]) (Collab.name_of_read_text read)
        (Collab.formed_of_read read)⟩

theorem outcome_create_of_free (there : database.collabs = some rows) {collab : Collab}
    (free : Ascending.find? collab.name rows = none) :
    outcome (collabStore.create collab) database = (.ok (), database.withRecord rows collab) := by
  change outcome (createCollab collab) database = _
  rw [createCollab, outcome_bind, outcome_collabRows_of_some there]
  simp [free, setCollabRows, withRecord]

theorem outcome_update_of_taken (there : database.collabs = some rows) {collab : Collab}
    (taken : Ascending.find? collab.name rows ≠ none) :
    outcome (collabStore.update collab) database = (.ok (), database.withRecord rows collab) := by
  change outcome (updateCollab collab) database = _
  rw [updateCollab, outcome_bind, outcome_collabRows_of_some there]
  simp [taken, setCollabRows, withRecord]

/-- The result of an edit and the database after it, given what the search for its identifier came
to. -/
def settle (database : Database) (rows : Table CollabRow) (schema : Schema) (edit : ResolvedEdit)
    (result : Except StoreError (Option Collab)) : Except ConfigError Outcome × Database :=
  match result.mapError .storage >>= edit.verdict schema with
  | .error error => (.error error, database)
  | .ok done => (.ok done, database.withRecord rows done.collab)

theorem settle_cases (database : Database) (rows : Table CollabRow) (schema : Schema)
    (edit : ResolvedEdit) (result : Except StoreError (Option Collab)) :
    (∃ done, database.settle rows schema edit result =
      (.ok done, database.withRecord rows done.collab)) ∨
      ∃ error, database.settle rows schema edit result = (.error error, database) := by
  unfold settle
  split
  next error _ => exact .inr ⟨error, rfl⟩
  next done _ => exact .inl ⟨done, rfl⟩

theorem settle_of_fails (database : Database) (rows : Table CollabRow) {schema : Schema}
    {edit : ResolvedEdit} (result : Except StoreError (Option Collab))
    (fails : ∀ held, ∃ error, edit.verdict schema held = .error error) :
    ∃ error, database.settle rows schema edit result = (.error error, database) := by
  cases result with
  | error cause => exact ⟨.storage cause, rfl⟩
  | ok held =>
    obtain ⟨error, verdict⟩ := fails held
    exact ⟨error, by simp [settle, verdict]⟩

theorem settle_congr {schema : Schema} {first second : ResolvedEdit} {name : String}
    {result : Except StoreError (Option Collab)} (sought : Sought rows name result)
    (same : ∀ held : Option Collab,
      (∀ collab, held = some collab → collab.name = name ∧ collab.Formed) →
      first.verdict schema held = second.verdict schema held) :
    database.settle rows schema first result = database.settle rows schema second result := by
  cases sought with
  | damaged message => rfl
  | absent free => simp [settle, same none nofun]
  | @found existing taken named formed =>
    have stored : ∀ collab, some existing = some collab →
        collab.name = name ∧ collab.Formed := by
      rintro collab same
      cases same
      exact ⟨named, formed⟩
    simp [settle, same (some existing) stored]

theorem settle_error_cases {schema : Schema} {edit : ResolvedEdit}
    {result : Except StoreError (Option Collab)} {error : ConfigError} {after : Database}
    (failed : database.settle rows schema edit result = (.error error, after)) :
    after = database ∧ ((∃ cause, result = .error cause ∧ error = .storage cause) ∨
      ∃ held, result = .ok held ∧ edit.verdict schema held = .error error) := by
  unfold settle at failed
  split at failed
  next cause refused =>
    cases failed
    refine ⟨rfl, ?_⟩
    rcases Except.bind_eq_error.1 refused with broken | ⟨held, search, verdict⟩
    · obtain ⟨cause, same, rfl⟩ := Except.mapError_eq_error.1 broken
      exact .inl ⟨cause, same, rfl⟩
    · exact .inr ⟨held, Except.mapError_eq_ok.1 search, verdict⟩
  next => cases failed

/-- A record is created under its identifier, if the edit gives it that name. So the row that is
created is free, and the row that is updated is the one that was found. -/
theorem outcome_apply {api : String} {own : List Field} {edit : ResolvedEdit}
    {result : Except StoreError (Option Collab)} (there : database.collabs = some rows)
    (search : outcome (collabStore.find? edit.identifier) database = (result, database))
    (sought : Sought rows edit.identifier result)
    (titled : edit.create = true → edit.edit.get? "name" = some (.string edit.identifier)) :
    outcome (collabStore.apply (Schema.ofFields api own) edit) database =
      database.settle rows (Schema.ofFields api own) edit result := by
  rw [CollabStore.apply, outcome_bind, outcome_onStore, search]
  cases sought with
  | damaged message => rfl
  | absent free =>
    cases create : edit.create with
    | false => simp [settle, ResolvedEdit.verdict, create]
    | true =>
      cases constructed : Collab.construct (Schema.ofFields api own) edit.edit with
      | error error =>
        simp [settle, ResolvedEdit.verdict, create, CollabStore.createNew, outcome_bind,
          constructed]
      | ok collab =>
        have named : edit.identifier = collab.name := by
          have given := (titled create).symm.trans (Collab.named_of_construct constructed)
          exact Json.string.inj (Option.some.inj given)
        -- The row is created under the name of the record, but the identifier was searched for.
        rw [named] at free
        simp [settle, ResolvedEdit.verdict, create, CollabStore.createNew, outcome_bind,
          constructed, outcome_create_of_free there free, Outcome.collab]
  | @found existing taken named formed =>
    cases create : edit.create with
    | true => simp [settle, ResolvedEdit.verdict, create]
    | false =>
      by_cases same : existing.api = (Schema.ofFields api own).api
      · cases assigned : existing.assignAll (Schema.ofFields api own) edit.edit with
        | error error =>
          simp [settle, ResolvedEdit.verdict, create, CollabStore.updateExisting, outcome_bind,
            same, assigned]
        | ok collab =>
          have kept : collab.name = edit.identifier :=
            (Collab.assignAll_kept assigned).name.trans named
          -- Assignments keep the name, so the row of the same name is written.
          rw [← kept] at taken
          simp [settle, ResolvedEdit.verdict, create, CollabStore.updateExisting, outcome_bind,
            same, assigned, outcome_update_of_taken there taken, Outcome.collab]
      · simp [settle, ResolvedEdit.verdict, create, CollabStore.updateExisting, same]

end Database

end SignalExchange
