import SignalExchange.Arguments.Parse
import SignalExchange.Edit.Resolve

/-! The edit command of an exchange: a few fixed arguments, and a flag for every editable field. -/

set_option autoImplicit false

namespace SignalExchange

/-- How a value of the type is written on the command line; items of a list one by one. -/
def FieldType.valueKind (type : FieldType) : ValueKind :=
  match type.required with
  | .integer => .integer
  | .number => .number
  | .boolean => .boolean
  | .choice among => .choice among.members
  | _ => .text

namespace EditableField

def fullHelp (field : EditableField) : String :=
  if field.isRequired then field.help ++ " [required on create]" else field.help

/-- The flag of a list may be repeated, and its values are split at commas. -/
def argument (field : EditableField) : Argument :=
  let base : Argument :=
    { id := field.name, long := some field.flag, help := field.fullHelp, action := .set,
      valueNames := some [field.placeholder] }
  match field.type.required with
  | .list items =>
    { base with action := .append, delimiter := some ',', kind := items.valueKind }
  | scalar => { base with kind := scalar.valueKind }

end EditableField

structure Surface where
  api : String
  fields : List EditableField
  command : Command

namespace Surface

def subjectId : String := "collab_name"

def createId : String := "create"

def enableId : String := "enable"

def disableId : String := "disable"

def documentId : String := "is_json"

def fixedArguments : List Argument :=
  [{ id := subjectId, action := .set, required := true,
     help := "the name of the collab (or a JSON object with --json)" },
   Argument.switch createId (some "create") (some 'C')
     "indicate you intend to create a config",
   { id := enableId, long := some "enable", action := .set, kind := .toggle, least := 0,
     requireEquals := true, whenBare := ["1"], help := "enable the config (default on create)" },
   Argument.switch disableId (some "disable") none "disable the config",
   Argument.switch documentId (some "json") (some 'J')
     "instead, interpret the argument as JSON and use that to edit the config"]

def toggleGroup : Group := ⟨"on_off", [enableId, disableId]⟩

def reserved : List String :=
  [subjectId, createId, enableId, disableId, documentId, "json", "help"]

def clashes (names : List String) (field : EditableField) : Bool :=
  field.name ∈ names || field.flag ∈ names

def commandFor (api : String) (fields : List EditableField) : Command :=
  { name := api
    about := s!"Create or edit collaborations for the {api} api"
    longAbout := s!"Create or edit collaborations for the {api} api\n\nGenerated from the collab "
      ++ "schema, so not everything may be documented."
    arguments := fixedArguments ++ fields.map (·.argument)
    groups := [toggleGroup] }

/-- The first field that has a reserved name is refused. -/
def build (api : String) (fields : List EditableField) : Except SchemaFault Surface :=
  match fields.find? (clashes reserved) with
  | some field => .error (.fixedFlag field.name)
  | none => .ok ⟨api, fields, commandFor api fields⟩

def avoids (surface : Surface) (names : List String) : Except SchemaFault Unit :=
  match surface.fields.find? (clashes names) with
  | some field => .error (.globalFlag field.name field.flag)
  | none => .ok ()

def fieldValue? (found : Matches) (field : EditableField) : Option Json :=
  match field.type.required with
  | .list _ => (found.all? field.name).map .array
  | _ => found.first? field.name

def toggle? (found : Matches) : Option Nat :=
  if found.isOn disableId then some 0 else (found.integer? enableId).map (·.toNat)

/-- The fields that were given stand in the order of the schema. -/
def editArgs (surface : Surface) (found : Matches) : Except ConfigError EditArgs :=
  match found.text? subjectId with
  | none => .error (.userInput "collab_name is required")
  | some subject => .ok {
      subject := subject
      create := found.isOn createId
      enable := toggle? found
      isDocument := found.isOn documentId
      fields := surface.fields.filterMap fun field =>
        (fieldValue? found field).map fun value => (field.name, value) }

end Surface

end SignalExchange
