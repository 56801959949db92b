import SignalExchange.Exchange.Basic

/-! Extension modules: what they contribute, the catalog that they are found in, and the store that
keeps the list of those that were added. -/

set_option autoImplicit false

namespace SignalExchange

structure Manifest where
  module : String
  contentTypes : List ContentType := []
  signalTypes : List SignalType := []
  exchangeTypes : List ExchangeType := []
  deriving BEq, Repr

structure Catalog where
  find? : String → Option Manifest

namespace Catalog

def empty : Catalog := ⟨fun _ => none⟩

/-- Replaces a manifest of the same module. -/
def add (catalog : Catalog) (manifest : Manifest) : Catalog :=
  ⟨fun module => if module = manifest.module then some manifest else catalog.find? module⟩

def load (catalog : Catalog) (module : String) : Except ConfigError Manifest :=
  match catalog.find? module with
  | some manifest => .ok manifest
  | none => .error (.unknownExtension module)

def tlsh : Manifest :=
  { module := "sigex.extensions.tlsh"
    signalTypes := [⟨"tlsh", "sigex.extensions.tlsh::TlshSignal", ["text"]⟩] }

def hashlistExchange : Exchange :=
  { name := "hashlist"
    qualifiedName := "sigex.extensions.hashlist::HashlistApi"
    schema := Schema.ofFields "hashlist"
      [{ name := "url", type := .text, help := some "where the hash list is published",
         placeholder := some "URL" },
       { name := "format", type := .choice ⟨"HashlistFormat", ["csv", "json"]⟩,
         default := some (.string "csv") }] }

def hashlist : Manifest :=
  { module := "sigex.extensions.hashlist"
    contentTypes := [⟨"file", "sigex.extensions.hashlist::FileContent"⟩]
    signalTypes := [⟨"file_sha256", "sigex.extensions.hashlist::FileSha256Signal", ["file"]⟩]
    exchangeTypes := [⟨hashlistExchange.name, hashlistExchange.qualifiedName,
      .built hashlistExchange⟩] }

/-- The modules that the program comes with. -/
def standard : Catalog := (empty.add tlsh).add hashlist

end Catalog

structure ExtensionStore (m : Type → Type) where
  list : ExceptT StoreError m (List String)
  contains (module : String) : ExceptT StoreError m Bool
  /-- Whether the module was not there before. -/
  add (module : String) : ExceptT StoreError m Bool
  remove (module : String) : ExceptT StoreError m Bool

end SignalExchange
