import SignalExchange.Collab.Basic
import SignalExchange.ThreatExchange.Client
import SignalExchange.Workspace

/-! The lines that commands print. -/

set_option autoImplicit false

namespace SignalExchange

namespace Listing

def lines (texts : List String) : String := String.join (texts.map (· ++ "\n"))

/-- Pairs in the order of their first texts, and where these agree of their second ones. -/
def sortPairs (pairs : List (String × String)) : List (String × String) :=
  pairs.mergeSort fun a b => a.1 < b.1 || (a.1 = b.1 && a.2 ≤ b.2)

def namedTypes (types : List (String × String)) : String :=
  lines ((sortPairs types).map fun type => type.1 ++ " " ++ type.2)

def signalTypes (types : List SignalType) : String :=
  namedTypes (types.map fun type => (type.name, type.qualifiedName))

def contentTypes (types : List ContentType) : String :=
  namedTypes (types.map fun type => (type.name, type.qualifiedName))

def collabs (collabs : List Collab) : String :=
  lines (collabs.map fun collab => collab.api ++ " " ++ collab.name)

def exchangeNames (names : List String) : String :=
  lines (names.mergeSort fun a b => a ≤ b)

/-- A heading and a line for each entry; nothing without entries. -/
def manifestSection (indent title : String) (entries : List (String × String)) : List String :=
  if entries = [] then []
  else (indent ++ title ++ ":") ::
    entries.map fun entry => indent ++ "  " ++ entry.1 ++ " - " ++ entry.2

def manifest (indent : String) (manifest : Manifest) : String :=
  lines (manifestSection indent "Signal"
      (manifest.signalTypes.map fun type => (type.name, type.qualifiedName)) ++
    manifestSection indent "Content"
      (manifest.contentTypes.map fun type => (type.name, type.qualifiedName)) ++
    manifestSection indent "API"
      (manifest.exchangeTypes.map fun type => (type.name, type.qualifiedName)))

def extension (catalog : Catalog) (module : String) : String :=
  lines [module] ++
    match catalog.load module with
    | .ok found => manifest "  " found
    | .error error => lines ["  (" ++ error.message ++ ")"]

def group (group : PrivacyGroup) : String :=
  let text := String.ofList (Integer.text group.id) ++ " " ++ group.name ++ " - " ++
    group.description
  String.ofList (text.toList.map fun c => if c = '\n' then ' ' else c)

/-- The groups with updates by name; groups of one name keep their order. -/
def groups (groups : List PrivacyGroup) : String :=
  lines (((groups.filter (·.updatesEnabled)).mergeSort fun a b => a.name ≤ b.name).map group)

end Listing

end SignalExchange
