import SignalExchange.Exchange.Mapping
import SignalExchange.Extension.Catalog

/-! A registry: the content types, the signal types and the exchanges that are known, and whether
the contributions of an extension fit it. -/

set_option autoImplicit false

namespace SignalExchange

structure Registry where
  contentTypes : List ContentType
  signalTypes : List SignalType
  exchanges : List Exchange
  deriving BEq, Repr

namespace Registry

def types (registry : Registry) : Except ConfigError TypeMapping :=
  TypeMapping.build registry.contentTypes registry.signalTypes

/-- The registry with what a manifest contributes and the exchanges built for it. -/
def extend (registry : Registry) (manifest : Manifest) (built : List Exchange) : Registry :=
  { contentTypes := registry.contentTypes ++ manifest.contentTypes
    signalTypes := registry.signalTypes ++ manifest.signalTypes
    exchanges := registry.exchanges ++ built }

end Registry

/-- An exchange whose schema is malformed counts as one that cannot be constructed. -/
def ExchangeType.candidate (type : ExchangeType) : Except ConfigError Exchange := do
  let exchange ← type.instantiate
  match exchange.describe with
  | .ok _ => return exchange
  | .error error => throw (.instantiation type.qualifiedName error.message)

/-- The exchanges that a manifest adds to a registry, which stays consistent with them. -/
def Manifest.fit (manifest : Manifest) (registry : Registry) :
    Except ConfigError (List Exchange) := do
  let _ ← (registry.extend manifest []).types
  let built ← manifest.exchangeTypes.mapM (·.candidate)
  let _ ← ExchangeMapping.build (registry.exchanges ++ built)
  return built

end SignalExchange
