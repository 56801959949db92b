import SignalExchange.Database.Basic
import SignalExchange.Json.Typed

/-! Tokens and credentials, in the database as JSON texts under their keys. -/

set_option autoImplicit false

namespace SignalExchange

def tokenKey : String := "fb_threatexchange_api_token"

def credentialsKey : String := "ncmec_credentials"

/-- The shape in which a setting is read. -/
abbrev SettingShape (α : Type) := Nat → Json.Scanner α

namespace SettingShape

def string : SettingShape String := fun _ => Json.stringValue

def integer : SettingShape Int := fun _ => Json.integerValue

def stringPair : SettingShape (String × String) := Json.pair Json.stringValue Json.stringValue

def document : SettingShape Json := Json.value

end SettingShape

namespace Database

def getSetting {α : Type} (shape : SettingShape α) (key : String) : DatabaseM (Option α) := do
  match Ascending.find? key (← settingRows) with
  | none => return none
  | some text =>
    match Json.readWith (shape Json.nestingLimit) text with
    | .ok value => return some value
    | .error error => throw (.serialization s!"Failed to parse setting '{key}': {error.message}")

def setSetting (key : String) (value : Json) : DatabaseM Unit := putSettingRow key value.text

end Database

end SignalExchange
