import SignalExchange.Edit.Surface
import SignalExchange.Exchange.Basic

/-! The table of the exchanges that are known, by unique name. -/

set_option autoImplicit false

namespace SignalExchange

structure RegisteredExchange where
  exchange : Exchange
  fields : List EditableField
  deriving BEq, Repr

namespace RegisteredExchange

def name (registered : RegisteredExchange) : String := registered.exchange.name

def schema (registered : RegisteredExchange) : Schema := registered.exchange.schema

end RegisteredExchange

/-- Registers an exchange whose schema is declared for it and well formed. -/
def Exchange.register (exchange : Exchange) : Except ConfigError RegisteredExchange := do
  if exchange.schema.api ≠ exchange.name then
    throw (.ofSchemaFault exchange.name (.foreign exchange.schema.api))
  return ⟨exchange, ← exchange.describe⟩

structure ExchangeMapping where
  registered : List RegisteredExchange
  deriving BEq, Repr

namespace ExchangeMapping

def build (exchanges : List Exchange) : Except ConfigError ExchangeMapping := do
  distinct "api" (exchanges.map (·.name))
  return ⟨← exchanges.mapM (·.register)⟩

def find? (mapping : ExchangeMapping) (name : String) : Option RegisteredExchange :=
  mapping.registered.find? fun registered => registered.name = name

def names (mapping : ExchangeMapping) : List String := mapping.registered.map (·.name)

def exchanges (mapping : ExchangeMapping) : List Exchange := mapping.registered.map (·.exchange)

def editable (mapping : ExchangeMapping) : List RegisteredExchange :=
  mapping.registered.filter fun registered => !registered.exchange.isSample

def surfaces (mapping : ExchangeMapping) : Except ConfigError (List Surface) :=
  mapping.editable.mapM fun registered =>
    (Surface.build registered.name registered.fields).mapError
      (.ofSchemaFault registered.name)

end ExchangeMapping

end SignalExchange
