import SignalExchange.Json.Typed

/-! Privacy groups of ThreatExchange, and the pages on which they are listed. -/

set_option autoImplicit false

namespace SignalExchange

structure PrivacyGroup where
  id : Int
  name : String
  description : String
  updatesEnabled : Bool
  deriving DecidableEq, Repr

namespace PrivacyGroup

def entries (group : PrivacyGroup) : List (String × Json) :=
  [("id", .integer group.id), ("name", .string group.name),
   ("description", .string group.description),
   ("threat_updates_enabled", .boolean group.updatesEnabled)]

def text (group : PrivacyGroup) : String :=
  String.ofList ('\x7b' :: (Json.printEntries group.entries ++ ['\x7d']))

/-- An identifier is an integer, or a string that holds one. -/
def idOf : Json → Except Json.Cause Int
  | .string text => (Integer.read text.toList).mapError .integer
  | .integer n => if Integer.InRange n then .ok n else .error (.noVariant "Id")
  | _ => .error (.noVariant "Id")

open Json in
/-- A fault of the identifier is placed by the record around it. -/
def idScanner (levels : Nat) : Scanner Int := fun rest => do
  let (found, rest) ← value levels rest
  match idOf found with
  | .ok id => return (id, rest)
  | .error cause => Fault.waiting cause rest

/-- The fields of a group read so far. -/
structure Draft where
  id : Option Int
  name : Option String
  description : Option String
  updatesEnabled : Option Bool

open Json in
/-- Each field stands at most once, and keys of no field are passed over. -/
def Draft.member (levels : Nat) (draft : Draft) (key : String) : Scanner Draft := fun rest => do
  if key = "id" then
    let (id, rest) ← once key draft.id (idScanner levels) rest
    return ({ draft with id := some id }, rest)
  else if key = "name" then
    let (name, rest) ← once key draft.name stringValue rest
    return ({ draft with name := some name }, rest)
  else if key = "description" then
    let (description, rest) ← once key draft.description stringValue rest
    return ({ draft with description := some description }, rest)
  else if key = "threat_updates_enabled" then
    let (enabled, rest) ← once key draft.updatesEnabled booleanValue rest
    return ({ draft with updatesEnabled := some enabled }, rest)
  else
    let (_, rest) ← Json.member skipValue rest
    return (draft, rest)

open Json in
/-- A group without a description has an empty one, and without the flag it has no updates. -/
def membersScanner (levels : Nat) : Scanner PrivacyGroup := fun rest => do
  let (draft, rest) ← allMembers (Draft.member levels) ⟨none, none, none, none⟩ rest
  return ({
    id := ← required "id" draft.id rest
    name := ← required "name" draft.name rest
    description := draft.description.getD ""
    updatesEnabled := draft.updatesEnabled.getD false }, rest)

open Json in
def elementsScanner (levels : Nat) : Scanner PrivacyGroup := fun rest => do
  let expected := "struct PrivacyGroup with 4 elements"
  let (id, rest) ← element 0 expected (idScanner levels) rest
  let (name, rest) ← element 1 expected stringValue rest
  let (description, rest) ← element? 2 stringValue rest
  let (enabled, rest) ← element? 3 booleanValue rest
  return (⟨id, name, description.getD "", enabled.getD false⟩, rest)

def scanner : Nat → Json.Scanner PrivacyGroup :=
  Json.recordOf "struct PrivacyGroup" membersScanner elementsScanner

/-- The group that a text holds. -/
def read (text : String) : Except Json.ReadError PrivacyGroup :=
  Json.readWith (scanner Json.nestingLimit) text

end PrivacyGroup

/-- A page of groups, and the address of the next page if there is one. -/
structure Page where
  groups : List PrivacyGroup
  next : Option String
  deriving DecidableEq, Repr

namespace Page

open Json in
def nextMember (next : Option (Option String)) (key : String) :
    Scanner (Option (Option String)) := fun rest => do
  if key = "next" then
    let (found, rest) ← once key next (optionalValue stringValue) rest
    return (some found, rest)
  else
    let (_, rest) ← Json.member skipValue rest
    return (next, rest)

open Json in
/-- The address of the next page. -/
def nextScanner : Nat → Scanner (Option String) :=
  recordOf "struct Paging"
    (fun _ rest => do
      let (next, rest) ← allMembers nextMember none rest
      return (next.getD none, rest))
    (fun _ => element 0 "struct Paging with 1 element" (optionalValue stringValue))

structure Draft where
  groups : Option (List PrivacyGroup)
  next : Option (Option (Option String))

open Json in
def Draft.member (levels : Nat) (draft : Draft) (key : String) : Scanner Draft := fun rest => do
  if key = "data" then
    let (groups, rest) ← once key draft.groups (sequence PrivacyGroup.scanner levels) rest
    return ({ draft with groups := some groups }, rest)
  else if key = "paging" then
    let (next, rest) ← once key draft.next (optionalValue (nextScanner levels)) rest
    return ({ draft with next := some next }, rest)
  else
    let (_, rest) ← Json.member skipValue rest
    return (draft, rest)

open Json in
def scanner : Nat → Scanner Page :=
  recordOf "struct Page"
    (fun levels rest => do
      let (draft, rest) ← allMembers (Draft.member levels) ⟨none, none⟩ rest
      return (⟨← required "data" draft.groups rest, (draft.next.getD none).join⟩, rest))
    (fun levels rest => do
      let expected := "struct Page with 2 elements"
      let (groups, rest) ← element 0 expected (sequence PrivacyGroup.scanner levels) rest
      let (next, rest) ← element? 1 (optionalValue (nextScanner levels)) rest
      return (⟨groups, (next.getD none).join⟩, rest))

/-- The page that a text holds. -/
def read (text : String) : Except Json.ReadError Page :=
  Json.readWith (scanner Json.nestingLimit) text

end Page

end SignalExchange
