import SignalExchange.ConfigError
import SignalExchange.Edit.EditSet
import SignalExchange.Json.Reader

/-! From the arguments of an edit command to the assignments that it asks for.

Four layers are laid over one another, and a later layer wins: the document, the identity of a
record that is to be created, the toggle, and the flags of single fields.
-/

set_option autoImplicit false

namespace SignalExchange

structure EditArgs where
  /-- The name of the record, or a document that holds it. -/
  subject : String
  create : Bool
  /-- Zero disables the record, any other number enables it. -/
  enable : Option Nat
  isDocument : Bool
  fields : List (String × Json)
  deriving BEq, Repr

structure ResolvedEdit where
  identifier : String
  edit : EditSet
  create : Bool
  deriving BEq, Repr

namespace EditArgs

def readDocument (text : String) : Except ConfigError (List (String × Json)) :=
  match Json.read text with
  | .error error => .error (.ofReadError error)
  | .ok (.object entries) => .ok entries
  | .ok other => .error (.userInput ("JSON payload must be an object, got " ++ other.text))

def documentName (entries : List (String × Json)) : Except ConfigError String :=
  match Ascending.find? "name" entries with
  | some (.string name) => .ok name
  | some _ => .error (.userInput "JSON 'name' must be a string")
  | none => .error (.userInput "JSON payload is missing the 'name' key")

/-- Every entry is a common field of its type, or an editable field of the exchange. -/
def checkEntry (fields : List EditableField) (key : String) (value : Json) :
    Except ConfigError Unit :=
  if key = "name" ∨ key = "api" then (FieldType.text.check value).mapError (.ofMismatch key)
  else if key = "enabled" then (FieldType.boolean.check value).mapError (.ofMismatch key)
  else
    match fields.find? fun field => field.name = key with
    | none => .error (.userInput s!"Unknown field in JSON: '{key}'")
    | some field => (field.type.check value).mapError (.ofMismatch key)

def base (fields : List EditableField) (args : EditArgs) :
    Except ConfigError (String × EditSet) := do
  if args.isDocument then
    let entries ← readDocument args.subject
    let name ← documentName entries
    entries.forM fun entry => checkEntry fields entry.1 entry.2
    return (name, .ofList entries)
  else
    return (args.subject, .empty)

/-- A record is created under its identifier, enabled, and for the exchange. -/
def withIdentity (api identifier : String) (args : EditArgs) (edit : EditSet) : EditSet :=
  if args.create then
    ((edit.set "name" (.string identifier)).set "enabled" (.boolean true)).set "api" (.string api)
  else edit

def withToggle (args : EditArgs) (edit : EditSet) : EditSet :=
  match args.enable with
  | none => edit
  | some enable => edit.set "enabled" (.boolean (enable ≠ 0))

def withFields (fields : List EditableField) (args : EditArgs) (edit : EditSet) : EditSet :=
  fields.foldl (fun edit field =>
    match EditSet.lookup field.name args.fields with
    | none => edit
    | some value => edit.set field.name value) edit

def resolve (api : String) (fields : List EditableField) (args : EditArgs) :
    Except ConfigError ResolvedEdit := do
  let (identifier, edit) ← args.base fields
  return {
    identifier := identifier
    edit := args.withFields fields (args.withToggle (args.withIdentity api identifier edit))
    create := args.create }

end EditArgs

end SignalExchange
