import SignalExchange.Ascending
import SignalExchange.ConfigError
import SignalExchange.Edit.EditSet

/-! Collaborations: named records, each bound to one exchange, and the stores that keep them. -/

set_option autoImplicit false

namespace SignalExchange

/-- The name and the exchange of a record never change. -/
structure Collab where
  name : String
  api : String
  enabled : Bool
  /-- The fields that are not common to all exchanges. -/
  attributes : AscendingMap Json
  deriving BEq, Repr

namespace Collab

def attribute? (collab : Collab) (field : String) : Option Json :=
  collab.attributes.find? field

def unknownField (schema : Schema) (field : String) : ConfigError :=
  .internal s!"'{field}' is not a field of the {schema.api} collab schema"

def put (collab : Collab) (field : String) (value : Json) : Except ConfigError Collab :=
  match field, value with
  | "name", .string name =>
    if name = collab.name then .ok collab
    else .error (.internal s!"cannot rename collab '{collab.name}' to '{name}'")
  | "api", .string api =>
    if api = collab.api then .ok collab else .error (.crossApi collab.api api)
  | "enabled", .boolean enabled => .ok { collab with enabled := enabled }
  | field, value =>
    .ok { collab with attributes := collab.attributes.insert field value }

def assign (schema : Schema) (collab : Collab) (field : String) (value : Json) :
    Except ConfigError Collab :=
  match schema.find? field with
  | none => .error (unknownField schema field)
  | some declared => do
    (declared.type.check value).mapError (.ofMismatch field)
    collab.put field value

def assignAll (schema : Schema) (collab : Collab) (edit : EditSet) : Except ConfigError Collab :=
  edit.entries.foldlM (fun collab entry => collab.assign schema entry.1 entry.2) collab

def newName (edit : EditSet) : Except ConfigError String :=
  match edit.get? "name" with
  | some (.string name) =>
    if name = "" then .error (.userInput "Collab name cannot be empty") else .ok name
  | some other => .error (.invalidValue "name" ("expected str, got " ++ other.text))
  | none => .error (.missingField "name")

def initialValue (schema : Schema) (edit : EditSet) (field : Field) : Except ConfigError Json :=
  match edit.get? field.name, field.default with
  | some value, _ => .ok value
  | none, some default => .ok default
  | none, none =>
    if field.name = "api" then .ok (.string schema.api) else .error (.missingField field.name)

def startField (schema : Schema) (edit : EditSet) (collab : Collab) (field : Field) :
    Except ConfigError Collab := do
  collab.assign schema field.name (← initialValue schema edit field)

/-- A new record: fields that are not assigned take their defaults. -/
def construct (schema : Schema) (edit : EditSet) : Except ConfigError Collab := do
  if let some key := edit.keys.find? fun key => (schema.find? key).isNone then
    throw (unknownField schema key)
  let name ← newName edit
  (schema.fields.filter fun field => field.name ≠ "name").foldlM (startField schema edit)
    ⟨name, schema.api, true, .empty⟩

end Collab

/-- Calls to a store of records, each of them one step of `m`. -/
structure CollabStore (m : Type → Type) where
  find? (name : String) : ExceptT StoreError m (Option Collab)
  list : ExceptT StoreError m (List Collab)
  create (collab : Collab) : ExceptT StoreError m Unit
  update (collab : Collab) : ExceptT StoreError m Unit
  /-- Whether there was a record to delete. -/
  delete (collab : Collab) : ExceptT StoreError m Bool

end SignalExchange
