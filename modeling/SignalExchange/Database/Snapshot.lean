import SignalExchange.Database.Basic
import SignalExchange.Json.Reader

/-! A database as one document, in which it is kept between runs. -/

set_option autoImplicit false

namespace SignalExchange

namespace Snapshot

def ofRow (row : CollabRow) : Json :=
  .array [.string row.api, .boolean row.enabled, .string row.data]

def toRow : Json → Option CollabRow
  | .array [.string api, .boolean enabled, .string data] => some ⟨api, enabled, data⟩
  | _ => none

/-- A module that the program added itself has no time of its own. -/
def ofAddedAt : AddedAt → Json
  | .recorded => .null
  | .text raw => .string raw

def toAddedAt : Json → Option AddedAt
  | .null => some .recorded
  | .string raw => some (.text raw)
  | _ => none

def toText : Json → Option String
  | .string text => some text
  | _ => none

def ofTable {α : Type} (encode : α → Json) : Option (Table α) → Json
  | none => .null
  | some rows => .object (rows.map fun row => (row.1, encode row.2))

def toRows {α : Type} (decode : Json → Option α) : List (String × Json) → Option (Table α)
  | [] => some []
  | (key, value) :: rest => do
    let row ← decode value
    let rows ← toRows decode rest
    return (key, row) :: rows

def toTable {α : Type} (decode : Json → Option α) : Json → Option (Option (Table α))
  | .null => some none
  | .object entries => (toRows decode entries).map some
  | _ => none

theorem toRow_ofRow (row : CollabRow) : toRow (ofRow row) = some row := rfl

theorem toAddedAt_ofAddedAt (addedAt : AddedAt) : toAddedAt (ofAddedAt addedAt) = some addedAt := by
  cases addedAt <;> rfl

theorem toTable_ofTable {α : Type} {encode : α → Json} {decode : Json → Option α}
    (inverse : ∀ row, decode (encode row) = some row) (table : Option (Table α)) :
    toTable decode (ofTable encode table) = some table := by
  cases table with
  | none => rfl
  | some rows =>
    have all : toRows decode (rows.map fun row => (row.1, encode row.2)) = some rows := by
      induction rows with
      | nil => rfl
      | cons row rest ih => simp [toRows, inverse, ih]
    simp [ofTable, toTable, all]

end Snapshot

namespace Database

open Snapshot

def toDocument (database : Database) : Json :=
  .object [(collabTable, ofTable ofRow database.collabs),
    (extensionTable, ofTable ofAddedAt database.extensions),
    (settingTable, ofTable Json.string database.settings),
    ("version", .integer database.version)]

def ofDocument? : Json → Option Database
  | .object [(_, collabs), (_, extensions), (_, settings), (_, .integer version)] => do
    return ⟨version, ← toTable toRow collabs, ← toTable toAddedAt extensions,
      ← toTable toText settings⟩
  | _ => none

theorem ofDocument?_toDocument (database : Database) :
    ofDocument? database.toDocument = some database := by
  simp [toDocument, ofDocument?, toTable_ofTable toRow_ofRow, toTable_ofTable toAddedAt_ofAddedAt,
    toTable_ofTable (fun text => (rfl : toText (Json.string text) = some text))]

def ofText? (text : String) : Option Database :=
  match Json.read text with
  | .ok document => ofDocument? document
  | .error _ => none

end Database

end SignalExchange
