import SignalExchange.Database.SettingTable
import SignalExchange.Proofs.Call

/-! Single settings in their table. -/

set_option autoImplicit false

namespace SignalExchange

namespace Database

open Call

variable {database : Database}

theorem outcome_settingRows : outcome settingRows database =
    (match database.settings with
      | some rows => .ok rows
      | none => .error (.engine (.noSuchTable settingTable)), database) := by
  simp only [settingRows, outcome_bind, outcome_get]
  cases database.settings <;> rfl

theorem outcome_setSetting (key : String) (value : Json) : outcome (setSetting key value) database =
    match database.settings with
    | some rows => (.ok (), { database with
        settings := some (Ascending.insert key value.text rows) })
    | none => (.error (.engine (.noSuchTable settingTable)), database) := by
  rw [setSetting, putSettingRow, outcome_bind, outcome_settingRows]
  cases database.settings with
  | some rows => rfl
  | none => rfl

theorem outcome_getSetting {α : Type} (shape : SettingShape α) (key : String) :
    outcome (getSetting shape key) database =
      (match database.settings with
        | none => .error (.engine (.noSuchTable settingTable))
        | some rows =>
          match Ascending.find? key rows with
          | none => .ok none
          | some text =>
            match Json.readWith (shape Json.nestingLimit) text with
            | .ok value => .ok (some value)
            | .error error => .error (.serialization
                s!"Failed to parse setting '{key}': {error.message}"), database) := by
  rw [getSetting, outcome_bind, outcome_settingRows]
  cases database.settings with
  | none => rfl
  | some rows =>
    dsimp only
    cases Ascending.find? key rows with
    | none => rfl
    | some text =>
      dsimp only
      cases Json.readWith (shape Json.nestingLimit) text <;> rfl

end Database

end SignalExchange
