import SignalExchange.Collab.Basic
import SignalExchange.Edit.Resolve

/-! The rules for creating, editing, importing and deleting records.

The name and the exchange of a record never change, and a store is written to at most once,
after everything else has been checked.
-/

set_option autoImplicit false

namespace SignalExchange

inductive Outcome where
  | created (collab : Collab)
  | updated (collab : Collab)
  deriving BEq, Repr

namespace Outcome

def collab : Outcome → Collab
  | created collab => collab
  | updated collab => collab

end Outcome

/-- The edit that makes an enabled record of something that was found elsewhere. -/
def EditSet.importedAs (fields : EditSet) (name api : String) : EditSet :=
  ((fields.set "name" (.string name)).set "enabled" (.boolean true)).set "api" (.string api)

namespace CollabStore

variable {m : Type → Type} [Monad m] (store : CollabStore m)

def listAll : ExceptT ConfigError m (List Collab) := ConfigError.onStore store.list

def createNew (schema : Schema) (edit : EditSet) : ExceptT ConfigError m Outcome := do
  let collab ← MonadExcept.ofExcept (Collab.construct schema edit)
  ConfigError.onStore (store.create collab)
  return .created collab

def updateExisting (schema : Schema) (existing : Collab) (edit : EditSet) :
    ExceptT ConfigError m Outcome := do
  if existing.api ≠ schema.api then throw (.crossApi existing.api schema.api)
  let collab ← MonadExcept.ofExcept (existing.assignAll schema edit)
  ConfigError.onStore (store.update collab)
  return .updated collab

/-- Creates the record of an edit, or edits the one that is there. -/
def apply (schema : Schema) (edit : ResolvedEdit) : ExceptT ConfigError m Outcome := do
  match ← ConfigError.onStore (store.find? edit.identifier), edit.create with
  | some _, true => throw (.duplicateCollab edit.identifier)
  | some existing, false => store.updateExisting schema existing edit.edit
  | none, true => store.createNew schema edit.edit
  | none, false => throw (.editTargetMissing edit.identifier)

def importAs (name : String) (schema : Schema) (fields : EditSet) :
    ExceptT ConfigError m Collab := do
  if (← ConfigError.onStore (store.find? name)).isSome then throw (.duplicateCollab name)
  return (← store.createNew schema (fields.importedAs name schema.api)).collab

def remove (name : String) : ExceptT ConfigError m Collab := do
  match ← ConfigError.onStore (store.find? name) with
  | none => throw (.collabNotFound name)
  | some existing =>
    if ← ConfigError.onStore (store.delete existing) then return existing
    else throw (.collabNotFound name)

end CollabStore

end SignalExchange
