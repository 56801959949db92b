import SignalExchange.Schema.FieldType

/-! Schemas: the fields that the collaborations of one exchange have.

Every schema starts with the same three common fields; the exchange appends its own.
-/

set_option autoImplicit false

namespace SignalExchange

structure Field where
  name : String
  type : FieldType
  /-- A field without a default has to be given on creation. -/
  default : Option Json := none
  /-- Fields that are not editable get no flag. -/
  editable : Bool := true
  help : Option String := none
  placeholder : Option String := none
  deriving BEq, Repr

/-- The fields that every collaboration has, whatever its exchange. -/
def commonFields : List Field :=
  [{ name := "name", type := .text, editable := false },
   { name := "api", type := .text, editable := false },
   { name := "enabled", type := .boolean, default := some (.boolean true), editable := false }]

def commonNames : List String := commonFields.map (·.name)

structure Schema where
  /-- The name of the exchange that the schema is declared for. -/
  api : String
  fields : List Field
  deriving BEq, Repr

namespace Schema

/-- The common fields, and after them those of the exchange. -/
def ofFields (api : String) (own : List Field) : Schema := ⟨api, commonFields ++ own⟩

def find? (schema : Schema) (name : String) : Option Field :=
  schema.fields.find? fun field => field.name = name

def ownFields (schema : Schema) : List Field :=
  schema.fields.filter fun field => field.name ∉ commonNames

end Schema

end SignalExchange
