import SignalExchange.Schema.FieldType

/-! Mistakes of a schema's author. -/

set_option autoImplicit false

namespace SignalExchange

inductive SchemaFault where
  | badName (field : String)
  | repeatedField (field : String)
  | nestedOptional (field : String)
  | emptyChoice (choice field : String)
  | repeatedMember (choice field : String)
  | badDefault (field : String) (mismatch : FieldType.Mismatch)
  /-- The flag of the field is one that every edit command has. -/
  | fixedFlag (field : String)
  /-- The flag of the field is one that the whole program has. -/
  | globalFlag (field flag : String)
  | foreign (api : String)

def SchemaFault.message : SchemaFault → String
  | .badName field => s!"field name '{field}' is not a snake_case identifier"
  | .repeatedField field => s!"field '{field}' declared twice"
  | .nestedOptional field => s!"field '{field}' nests an optional inside an optional"
  | .emptyChoice choice field => s!"enum {choice} for '{field}' has no members"
  | .repeatedMember choice field => s!"enum {choice} for '{field}' repeats a member"
  | .badDefault field mismatch =>
    s!"default for '{field}' does not match its type: {mismatch.message}"
  | .fixedFlag field => s!"field '{field}' collides with a built-in flag"
  | .globalFlag field flag => s!"field '{field}' collides with the global --{flag} flag"
  | .foreign api => s!"collab schema is declared for '{api}'"

end SignalExchange
