import SignalExchange.Collab.Basic
import SignalExchange.Json.Typed

/-! The attributes of a record that follows a privacy group of ThreatExchange. -/

set_option autoImplicit false

namespace SignalExchange

structure PrivacyGroupSettings where
  group : Int
  /-- A token that replaces the one for the whole exchange. -/
  tokenOverride : Option String
  deriving DecidableEq, Repr

namespace PrivacyGroupSettings

def readToken : Option Json → Except Json.Cause (Option String)
  | none => .ok none
  | some .null => .ok none
  | some value => (Json.asString value).map some

/-- The token is looked at before the group, and any other attribute is left alone. -/
def ofAttributes (attributes : AscendingMap Json) :
    Except Json.Cause PrivacyGroupSettings := do
  let token ← readToken (attributes.find? "app_token_override")
  match attributes.find? "privacy_group" with
  | none => throw (.missingField "privacy_group")
  | some value => return ⟨← Json.asInteger value, token⟩

end PrivacyGroupSettings

def Collab.privacyGroupSettings (collab : Collab) : Except ConfigError PrivacyGroupSettings :=
  (PrivacyGroupSettings.ofAttributes collab.attributes).mapError fun cause =>
    .internal s!"collab '{collab.name}' does not match its {collab.api} config: {cause.message}"

end SignalExchange
