import SignalExchange.Schema.Basic
import SignalExchange.Schema.Fault

/-! The editable fields of a well-formed schema. -/

set_option autoImplicit false

namespace SignalExchange

/-- The help of a field whose author gave none. -/
def missingHelp : String := "[missing] add a help annotation to the collab schema"

/-- A field as the command line offers it. -/
structure EditableField where
  name : String
  /-- The type as declared, which may be optional. -/
  type : FieldType
  default : Option Json
  placeholder : String
  help : String
  deriving BEq, Repr

namespace EditableField

def isRequired (field : EditableField) : Bool := field.default.isNone

/-- The members to choose from; none for other types. -/
def members (field : EditableField) : List String :=
  (field.type.choice?.map (·.members)).getD []

end EditableField

/-- A field name with hyphens for its underscores. -/
def flagName (name : String) : String :=
  String.ofList (name.toList.map fun c => if c = '_' then '-' else c)

def EditableField.flag (field : EditableField) : String := flagName field.name

namespace Field

/-- Without a placeholder of its own a field shows its members, or its type. -/
def shownPlaceholder (field : Field) : String :=
  match field.placeholder, field.type.choice? with
  | some placeholder, _ => placeholder
  | none, some among => "[" ++ String.intercalate "," among.members ++ "]"
  | none, none => field.type.required.label

def toEditable (field : Field) : EditableField :=
  { name := field.name
    type := field.type
    default := field.default
    placeholder := field.shownPlaceholder
    help := field.help.getD missingHelp }

end Field

def isLowercase (c : Char) : Bool := 'a' ≤ c && c ≤ 'z'

def isNamePart (c : Char) : Bool := isLowercase c || ('0' ≤ c && c ≤ '9') || c = '_'

/-- A lowercase letter, then lowercase letters, digits and underscores, all of them ASCII. -/
def isFieldName (name : String) : Bool :=
  match name.toList with
  | [] => false
  | c :: rest => isLowercase c && rest.all isNamePart

/-- No optional stands inside another, and choices are not empty and name no member twice. -/
def FieldType.wellFormed (field : String) : Bool → FieldType → Except SchemaFault Unit
  | true, .optional _ => .error (.nestedOptional field)
  | false, .optional inner => inner.wellFormed field true
  | inside, .list items => items.wellFormed field inside
  | _, .choice among =>
    if among.members = [] then .error (.emptyChoice among.name field)
    else if among.members.Nodup then .ok ()
    else .error (.repeatedMember among.name field)
  | _, _ => .ok ()

namespace Field

def defaultFits (field : Field) : Except SchemaFault Unit :=
  match field.default with
  | none => .ok ()
  | some value => (field.type.check value).mapError (.badDefault field.name)

def wellFormed (earlier : List String) (field : Field) : Except SchemaFault Unit := do
  if !isFieldName field.name then throw (.badName field.name)
  if field.name ∈ earlier then throw (.repeatedField field.name)
  field.type.wellFormed field.name false
  field.defaultFits

end Field

namespace Schema

def fieldsWellFormed : List String → List Field → Except SchemaFault Unit
  | _, [] => .ok ()
  | earlier, field :: rest => do
    field.wellFormed earlier
    fieldsWellFormed (field.name :: earlier) rest

def wellFormed (schema : Schema) : Except SchemaFault Unit := fieldsWellFormed [] schema.fields

def editableFields (schema : Schema) : Except SchemaFault (List EditableField) := do
  schema.wellFormed
  return (schema.fields.filter (·.editable)).map Field.toEditable

end Schema

end SignalExchange
