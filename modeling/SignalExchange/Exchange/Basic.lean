import SignalExchange.Signal.Mapping
import SignalExchange.Text.Quoted

/-! Signal exchanges, and how the registered ones are constructed. -/

set_option autoImplicit false

namespace SignalExchange

/-- A live integration with a signal exchange. -/
structure Exchange where
  name : String
  qualifiedName : String
  schema : Schema
  /-- Samples are listed and cannot be edited. -/
  isSample : Bool := false
  deriving BEq, Repr

inductive Construction where
  | built (exchange : Exchange)
  | failed (message : String)
  | brokeOff (message : Option String)
  deriving BEq, Repr

structure ExchangeType where
  name : String
  qualifiedName : String
  construction : Construction
  deriving BEq, Repr

namespace ExchangeType

/-- The exchange, if it can be constructed and has the registered name. -/
def instantiate (type : ExchangeType) : Except ConfigError Exchange :=
  match type.construction with
  | .failed message => .error (.instantiation type.qualifiedName message)
  | .brokeOff message =>
    .error (.instantiation type.qualifiedName (message.getD "constructor panicked"))
  | .built exchange =>
    if exchange.name = type.name then .ok exchange
    else .error (.instantiation type.qualifiedName
      s!"registered as '{type.name}' but built '{exchange.name}'")

def diagnostic (type : ExchangeType) : String :=
  "ApiType \x7b name: " ++ quoted type.name ++ ", qualified_name: " ++
    quoted type.qualifiedName ++ ", .. \x7d"

end ExchangeType

namespace Exchange

def diagnostic (exchange : Exchange) : String :=
  "SignalExchangeApi \x7b name: " ++ quoted exchange.name ++ ", qualified_name: " ++
    quoted exchange.qualifiedName ++ " \x7d"

def describe (exchange : Exchange) : Except ConfigError (List EditableField) :=
  exchange.schema.editableFields.mapError (.ofSchemaFault exchange.schema.api)

end Exchange

end SignalExchange
