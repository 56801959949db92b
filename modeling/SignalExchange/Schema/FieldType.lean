import SignalExchange.Json.Printer
import SignalExchange.Text.Integer

/-! Types of configuration fields, and the JSON values that inhabit them. -/

set_option autoImplicit false

namespace SignalExchange

/-- A named set of texts to choose from, in the order of their declaration. -/
structure Choice where
  name : String
  members : List String
  deriving DecidableEq, Repr

inductive FieldType where
  | text
  | integer
  | number
  | boolean
  | choice (among : Choice)
  | optional (inner : FieldType)
  | list (items : FieldType)
  deriving DecidableEq, Repr

namespace FieldType

/-- The type without an optional around it; command line values are read at this type. -/
def required : FieldType → FieldType
  | .optional inner => inner
  | type => type

def choice? (type : FieldType) : Option Choice :=
  match type.required with
  | .choice among => some among
  | _ => none

/-- The name by which a type appears in help texts and messages. -/
def label : FieldType → String
  | .text => "str"
  | .integer => "int"
  | .number => "float"
  | .boolean => "bool"
  | .choice among => among.name
  | .optional inner => inner.label
  | .list items => items.label ++ ",..."

/-- Why a value does not inhabit a type. -/
inductive Mismatch where
  | notAMember (word : String) (members : List String)
  | wrongKind (expected : FieldType) (actual : Json)

def Mismatch.message : Mismatch → String
  | .notAMember word members =>
    "'" ++ word ++ "' is not one of [" ++ String.intercalate "," members ++ "]"
  | .wrongKind expected actual => "expected " ++ expected.label ++ ", got " ++ actual.text

/-- An integer must fit 64 signed bits; any number is a number; null inhabits optional types. -/
def check : FieldType → Json → Except Mismatch Unit
  | .optional _, .null => .ok ()
  | .optional inner, value => inner.check value
  | .text, .string _ => .ok ()
  | .boolean, .boolean _ => .ok ()
  | .integer, .integer n =>
    if Integer.InRange n then .ok () else .error (.wrongKind .integer (.integer n))
  | .number, .integer _ => .ok ()
  | .number, .double _ => .ok ()
  | .choice among, .string word =>
    if word ∈ among.members then .ok () else .error (.notAMember word among.members)
  | .list items, .array values => values.forM items.check
  | type, value => .error (.wrongKind type value)

def Accepts (type : FieldType) (value : Json) : Prop := type.check value = .ok ()

end FieldType

end SignalExchange
