import SignalExchange.Collab.Basic
import SignalExchange.Json.Typed

/-! Records as JSON texts: the common fields first, and after them the attributes by name. -/

set_option autoImplicit false

namespace SignalExchange

namespace Collab

def entries (collab : Collab) : List (String × Json) :=
  ("name", .string collab.name) :: ("api", .string collab.api) ::
    ("enabled", .boolean collab.enabled) :: collab.attributes.entries

def text (collab : Collab) : String :=
  String.ofList ('\x7b' :: (Json.printEntries collab.entries ++ ['\x7d']))

/-- The fields of a record read so far. -/
structure Draft where
  name : Option String
  api : Option String
  enabled : Option Bool
  attributes : AscendingMap Json

open Json in
/-- Common fields stand once; of a repeated attribute the last value counts. -/
def Draft.member (levels : Nat) (draft : Draft) (key : String) : Scanner Draft := fun rest => do
  if key = "name" then
    let (name, rest) ← once key draft.name stringValue rest
    return ({ draft with name := some name }, rest)
  else if key = "api" then
    let (api, rest) ← once key draft.api stringValue rest
    return ({ draft with api := some api }, rest)
  else if key = "enabled" then
    let (enabled, rest) ← once key draft.enabled booleanValue rest
    return ({ draft with enabled := some enabled }, rest)
  else
    let (value, rest) ← Json.member (Json.value levels) rest
    return ({ draft with attributes := draft.attributes.insert key value }, rest)

open Json in
def Draft.finish (draft : Draft) (rest : List Char) : Except Fault Collab := do
  return {
    name := ← required "name" draft.name rest
    api := ← required "api" draft.api rest
    enabled := ← required "enabled" draft.enabled rest
    attributes := draft.attributes }

open Json in
def scanner : Nat → Scanner Collab :=
  objectOf "struct CollabConfig" fun levels rest => do
    let (draft, rest) ← allMembers (Draft.member levels) ⟨none, none, none, .empty⟩ rest
    return (← draft.finish rest, rest)

def read (text : String) : Except Json.ReadError Collab :=
  Json.readWith (scanner Json.nestingLimit) text

end Collab

end SignalExchange
