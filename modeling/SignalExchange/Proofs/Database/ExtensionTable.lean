import SignalExchange.Database.ExtensionTable
import SignalExchange.Proofs.Ascending
import SignalExchange.Proofs.Call

/-! The table of extensions as the list of its modules. -/

set_option autoImplicit false

namespace SignalExchange

namespace Database

open Call

variable {database : Database} {rows : Table AddedAt}

theorem outcome_extensionRows (there : database.extensions = some rows) :
    outcome extensionRows database = (.ok rows, database) := by
  simp [extensionRows, outcome_bind, rowsOf, there]

theorem outcome_listExtensions (there : database.extensions = some rows) :
    outcome listExtensions database = (.ok (rows.map (·.1)), database) := by
  simp [listExtensions, outcome_extensionRows there]

theorem outcome_hasExtension (there : database.extensions = some rows) (module : String) :
    outcome (hasExtension module) database =
      (match Ascending.find? module rows with
        | none => .ok false
        | some addedAt => addedAt.read.map fun _ => true, database) := by
  simp only [hasExtension, extensionAddedAt, outcome_bind, outcome_extensionRows there]
  cases Ascending.find? module rows with
  | none => rfl
  | some addedAt => cases read : addedAt.read <;> simp [read]

theorem outcome_addExtension (there : database.extensions = some rows) (module : String) :
    outcome (addExtension module) database =
      if (Ascending.find? module rows).isSome then (.ok false, database)
      else (.ok true,
        { database with extensions := some (Ascending.insert module .recorded rows) }) := by
  rw [addExtension, outcome_bind, outcome_extensionRows there]
  simp only
  split
  next => rfl
  next => simp [setExtensionRows]

theorem outcome_removeExtension (there : database.extensions = some rows) (module : String) :
    outcome (removeExtension module) database =
      if (Ascending.find? module rows).isNone then (.ok false, database)
      else (.ok true, { database with extensions := some (Ascending.erase module rows) }) := by
  rw [removeExtension, outcome_bind, outcome_extensionRows there]
  simp only
  split
  next => rfl
  next => simp [setExtensionRows]

end Database

end SignalExchange
