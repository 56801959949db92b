import SignalExchange.Database.Basic
import SignalExchange.Extension.Catalog

/-! The extension modules that were added, in the database. -/

set_option autoImplicit false

namespace SignalExchange

/-- The time that a row tells; the program's own clock readings are not kept. -/
def AddedAt.read : AddedAt → Except StoreError (Option Timestamp)
  | .recorded => .ok none
  | .text raw =>
    match Timestamp.read raw with
    | .ok timestamp => .ok (some timestamp)
    | .error fault => .error (.serialization ("Invalid datetime: " ++ fault.message))

namespace Database

def listExtensions : DatabaseM (List String) := do
  return (← extensionRows).map (·.1)

def extensionAddedAt (module : String) : DatabaseM (Option (Option Timestamp)) := do
  match Ascending.find? module (← extensionRows) with
  | none => return none
  | some addedAt => return some (← MonadExcept.ofExcept addedAt.read)

/-- A row with an unreadable time is an error, not a module that was never added. -/
def hasExtension (module : String) : DatabaseM Bool := do
  return (← extensionAddedAt module).isSome

/-- Whether the module was not there before. -/
def addExtension (module : String) : DatabaseM Bool := do
  let rows ← extensionRows
  if (Ascending.find? module rows).isSome then return false
  setExtensionRows (Ascending.insert module .recorded rows)
  return true

def removeExtension (module : String) : DatabaseM Bool := do
  let rows ← extensionRows
  if (Ascending.find? module rows).isNone then return false
  setExtensionRows (Ascending.erase module rows)
  return true

def extensionStore : ExtensionStore (StateM Database) :=
  { list := listExtensions
    contains := hasExtension
    add := addExtension
    remove := removeExtension }

end Database

end SignalExchange
