import SignalExchange.Database.CollabTable
import SignalExchange.Database.SettingTable
import SignalExchange.Proofs.Database.ExtensionTable
import SignalExchange.Proofs.Transaction

/-! The rows of a database, and the calls that change them.

Nothing is asked of the database: tables may be missing, rows may be damaged or out of order.
-/

set_option autoImplicit false

namespace SignalExchange

inductive TableName where
  | collabs
  | extensions
  | settings
  deriving DecidableEq, Inhabited, Repr

/-- A row of one of the tables. -/
inductive Row where
  | collab (row : CollabRow)
  | extension (addedAt : AddedAt)
  | setting (text : String)
  deriving DecidableEq, Repr

namespace Database

open Call

/-- The row of a key. A table that is missing has none. -/
def rowIn {α : Type} (table : Option (Table α)) (key : String) : Option α :=
  table.bind (Ascending.find? key)

def rows (database : Database) (place : TableName × String) : Option Row :=
  match place.1 with
  | .collabs => (rowIn database.collabs place.2).map .collab
  | .extensions => (rowIn database.extensions place.2).map .extension
  | .settings => (rowIn database.settings place.2).map .setting

theorem rowIn_insert_of_ne {α : Type} {entries : Table α} {key other : String}
    (differs : other ≠ key) (value : α) :
    rowIn (some (Ascending.insert key value entries)) other = rowIn (some entries) other :=
  Ascending.find?_insert_of_ne differs value entries

theorem rowIn_erase_of_ne {α : Type} {entries : Table α} {key other : String}
    (differs : other ≠ key) :
    rowIn (some (Ascending.erase key entries)) other = rowIn (some entries) other :=
  Ascending.find?_erase_of_ne differs entries

variable {database : Database}

/-! One row of one table -/

theorem oneApart_collabs {table : Option (Table CollabRow)} (key : String)
    (others : ∀ other, other ≠ key → rowIn table other = rowIn database.collabs other) :
    OneApart database.rows { database with collabs := table }.rows := by
  refine ⟨(.collabs, key), fun place differs => ?_⟩
  obtain ⟨name, other⟩ := place
  cases name with
  | collabs =>
    have apart : other ≠ key := fun same => differs (same ▸ rfl)
    simp only [rows, others other apart]
  | extensions => rfl
  | settings => rfl

theorem oneApart_extensions {table : Option (Table AddedAt)} (key : String)
    (others : ∀ other, other ≠ key → rowIn table other = rowIn database.extensions other) :
    OneApart database.rows { database with extensions := table }.rows := by
  refine ⟨(.extensions, key), fun place differs => ?_⟩
  obtain ⟨name, other⟩ := place
  cases name with
  | extensions =>
    have apart : other ≠ key := fun same => differs (same ▸ rfl)
    simp only [rows, others other apart]
  | collabs => rfl
  | settings => rfl

theorem oneApart_settings {table : Option (Table String)} (key : String)
    (others : ∀ other, other ≠ key → rowIn table other = rowIn database.settings other) :
    OneApart database.rows { database with settings := table }.rows := by
  refine ⟨(.settings, key), fun place differs => ?_⟩
  obtain ⟨name, other⟩ := place
  cases name with
  | settings =>
    have apart : other ≠ key := fun same => differs (same ▸ rfl)
    simp only [rows, others other apart]
  | collabs => rfl
  | extensions => rfl

/-! Reading -/

theorem outcome_tableRows {α : Type} (name : String) (table : Database → Option (Table α)) :
    outcome (do rowsOf name (table (← get))) database =
      (match table database with
        | some entries => .ok entries
        | none => .error (.engine (.noSuchTable name)), database) := by
  rw [outcome_bind]
  simp only [outcome_get]
  cases table database <;> rfl

theorem reads_tableRows {α : Type} (name : String) (table : Database → Option (Table α)) :
    Reads rows (do rowsOf name (table (← get))) := fun _ => by rw [outcome_tableRows]

theorem reads_collabRows : Reads rows collabRows := reads_tableRows collabTable Database.collabs

theorem reads_extensionRows : Reads rows extensionRows :=
  reads_tableRows extensionTable Database.extensions

theorem reads_settingRows : Reads rows settingRows := reads_tableRows settingTable Database.settings

theorem reads_findCollab (name : String) : Reads rows (findCollab name) := by
  refine reads_collabRows.bind fun entries => ?_
  cases Ascending.find? name entries with
  | none => exact .pure _
  | some row => exact (Reads.ofExcept _).bind fun _ => .pure _

theorem reads_listCollabs : Reads rows listCollabs :=
  reads_collabRows.bind fun _ => .ofExcept _

theorem reads_listExtensions : Reads rows listExtensions := reads_extensionRows.map _

theorem reads_hasExtension (module : String) : Reads rows (hasExtension module) := by
  refine Reads.map (reads_extensionRows.bind fun entries => ?_) _
  cases Ascending.find? module entries with
  | none => exact .pure _
  | some addedAt => exact (Reads.ofExcept _).bind fun _ => .pure _

theorem reads_getSetting {α : Type} (shape : SettingShape α) (key : String) :
    Reads rows (getSetting shape key) := by
  refine reads_settingRows.bind fun entries => ?_
  cases Ascending.find? key entries with
  | none => exact .pure _
  | some text =>
    simp only
    cases Json.readWith (shape Json.nestingLimit) text with
    | ok value => exact .pure _
    | error error => exact .throw _

/-! Writing

A table that is missing fails the call, and one that is there is written to for one key. -/

section
variable {α β : Type} {name : String} {table : Database → Option (Table α)}

theorem writes_tableRows {next : Table α → DatabaseM β}
    (rest : ∀ database entries, table database = some entries →
      WritesOnceFrom rows database (next entries)) :
    WritesOnce rows (do next (← rowsOf name (table (← get)))) := by
  intro database
  rw [WritesOnceFrom, ← bind_assoc, outcome_bind, outcome_tableRows]
  cases there : table database with
  | none => rfl
  | some entries => exact rest database entries there

theorem attempts_tableRows {next : Table α → DatabaseM Bool}
    (rest : ∀ database entries, table database = some entries →
      AttemptsFrom rows database (next entries)) :
    Attempts rows (do next (← rowsOf name (table (← get)))) := by
  intro database
  rw [AttemptsFrom, ← bind_assoc, outcome_bind, outcome_tableRows]
  cases there : table database with
  | none => rfl
  | some entries => exact rest database entries there

end

theorem writes_createCollab (collab : Collab) : WritesOnce rows (createCollab collab) := by
  refine writes_tableRows fun database entries there => ?_
  split
  · exact rfl
  · refine oneApart_collabs collab.name fun other differs => ?_
    rw [there, rowIn_insert_of_ne differs]

theorem writes_updateCollab (collab : Collab) : WritesOnce rows (updateCollab collab) := by
  refine writes_tableRows fun database entries there => ?_
  split
  · exact rfl
  · refine oneApart_collabs collab.name fun other differs => ?_
    rw [there, rowIn_insert_of_ne differs]

theorem attempts_deleteCollab (collab : Collab) : Attempts rows (deleteCollab collab) := by
  refine attempts_tableRows fun database entries there => ?_
  split
  · exact rfl
  · refine oneApart_collabs collab.name fun other differs => ?_
    rw [there, rowIn_erase_of_ne differs]

theorem attempts_addExtension (module : String) : Attempts rows (addExtension module) := by
  refine attempts_tableRows fun database entries there => ?_
  split
  · exact rfl
  · refine oneApart_extensions module fun other differs => ?_
    rw [there, rowIn_insert_of_ne differs]

theorem attempts_removeExtension (module : String) : Attempts rows (removeExtension module) := by
  refine attempts_tableRows fun database entries there => ?_
  split
  · exact rfl
  · refine oneApart_extensions module fun other differs => ?_
    rw [there, rowIn_erase_of_ne differs]

theorem writes_setSetting (key : String) (value : Json) :
    WritesOnce rows (setSetting key value) := by
  refine writes_tableRows fun database entries there => ?_
  refine oneApart_settings key fun other differs => ?_
  rw [there, rowIn_insert_of_ne differs]

end Database

end SignalExchange
