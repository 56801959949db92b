import SignalExchange.Registry.Standard

/-! What a command works with: the registry as the standard one and the extensions make it. -/

set_option autoImplicit false

namespace SignalExchange

/-- An extension that was added and cannot be loaded. -/
structure Skipped where
  module : String
  error : ConfigError
  deriving DecidableEq, Repr

/-- A registry while the extensions are joined to it one by one. -/
structure Assembly where
  registry : Registry
  extensions : List Manifest
  skipped : List Skipped

namespace Assembly

def start : Assembly := ⟨Registry.standard, [], []⟩

/-- What an extension adds to the registry, if it can be loaded and fits. -/
def contribution (catalog : Catalog) (assembly : Assembly) (module : String) :
    Except ConfigError (Manifest × List Exchange) := do
  let manifest ← catalog.load module
  return (manifest, ← manifest.fit assembly.registry)

/-- An extension that cannot join leaves no trace in the registry. -/
def join (catalog : Catalog) (assembly : Assembly) (module : String) : Assembly :=
  match assembly.contribution catalog module with
  | .ok (manifest, built) =>
    { assembly with
      registry := assembly.registry.extend manifest built
      extensions := assembly.extensions ++ [manifest] }
  | .error error => { assembly with skipped := assembly.skipped ++ [⟨module, error⟩] }

end Assembly

structure Workspace where
  catalog : Catalog
  types : TypeMapping
  exchanges : ExchangeMapping
  /-- The extensions that were loaded. -/
  extensions : List Manifest

namespace Workspace

/-- The workspace for a list of modules, and those of them that were skipped. -/
def assemble (catalog : Catalog) (modules : List String) :
    Except ConfigError (Workspace × List Skipped) := do
  let assembly := modules.foldl (Assembly.join catalog) .start
  let types ← assembly.registry.types
  let exchanges ← ExchangeMapping.build assembly.registry.exchanges
  return (⟨catalog, types, exchanges, assembly.extensions⟩, assembly.skipped)

def registry (workspace : Workspace) : Registry :=
  ⟨workspace.types.contentTypes, workspace.types.signalTypes, workspace.exchanges.exchanges⟩

end Workspace

namespace ExtensionStore

variable {m : Type → Type} [Monad m] (store : ExtensionStore m)

/-- The workspace for the modules of the store. -/
def load (catalog : Catalog) : ExceptT ConfigError m (Workspace × List Skipped) := do
  MonadExcept.ofExcept (Workspace.assemble catalog (← ConfigError.onStore store.list))

/-- Adds a module that fits the registry of a workspace, and gives what it contributes. -/
def join (workspace : Workspace) (module : String) :
    ExceptT ConfigError m (Manifest × List Exchange) := do
  if ← ConfigError.onStore (store.contains module) then throw (.extensionAlreadyAdded module)
  let manifest ← MonadExcept.ofExcept (workspace.catalog.load module)
  let built ← MonadExcept.ofExcept (manifest.fit workspace.registry)
  if ← ConfigError.onStore (store.add module) then return (manifest, built)
  else throw (.extensionAlreadyAdded module)

/-- The extensions that stay are not looked at again. -/
def leave (module : String) : ExceptT ConfigError m Unit := do
  unless ← ConfigError.onStore (store.remove module) do throw (.extensionNotAdded module)

end ExtensionStore

end SignalExchange
