import SignalExchange.Collab.Text
import SignalExchange.Database.Basic

/-! Records in the database, each as the text of its document. -/

set_option autoImplicit false

namespace SignalExchange

namespace Collab

def row (collab : Collab) : CollabRow := ⟨collab.api, collab.enabled, collab.text⟩

end Collab

namespace CollabRow

def read (row : CollabRow) : Except StoreError Collab :=
  (Collab.read row.data).mapError fun error =>
    .serialization ("Failed to parse collab: " ++ error.message)

end CollabRow

namespace Database

def findCollab (name : String) : DatabaseM (Option Collab) := do
  match Ascending.find? name (← collabRows) with
  | none => return none
  | some row => return some (← MonadExcept.ofExcept row.read)

/-- One damaged row fails the whole list. -/
def listCollabs : DatabaseM (List Collab) := do
  MonadExcept.ofExcept ((← collabRows).mapM fun row => row.2.read)

def createCollab (collab : Collab) : DatabaseM Unit := do
  let rows ← collabRows
  if (Ascending.find? collab.name rows).isSome then
    throw (.engine (.repeatedKey collabTable "name"))
  setCollabRows (Ascending.insert collab.name collab.row rows)

def updateCollab (collab : Collab) : DatabaseM Unit := do
  let rows ← collabRows
  if (Ascending.find? collab.name rows).isNone then
    throw (.serialization ("Collab not found: " ++ collab.name))
  setCollabRows (Ascending.insert collab.name collab.row rows)

def deleteCollab (collab : Collab) : DatabaseM Bool := do
  let rows ← collabRows
  if (Ascending.find? collab.name rows).isNone then return false
  setCollabRows (Ascending.erase collab.name rows)
  return true

def collabStore : CollabStore (StateM Database) :=
  { find? := findCollab
    list := listCollabs
    create := createCollab
    update := updateCollab
    delete := deleteCollab }

end Database

end SignalExchange
