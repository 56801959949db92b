import SignalExchange.Database.CollabTable
import SignalExchange.Proofs.Call
import SignalExchange.Proofs.Collab.Text

/-! The table of records as a map.

A database keeps a map of records when its rows are theirs, each under the name of its record. The
calls of the store then act on the map.
-/

set_option autoImplicit false

namespace SignalExchange

namespace Ascending

variable {α β : Type}

theorem find?_map (f : α → β) (key : String) (map : List (String × α)) :
    find? key (map.map fun entry => (entry.1, f entry.2)) = (find? key map).map f := by
  induction map with
  | nil => rfl
  | cons head rest ih =>
    obtain ⟨k, v⟩ := head
    by_cases same : k = key
    · simp [find?, same]
    · simpa [find?, same] using ih

theorem insert_map (f : α → β) (key : String) (value : α) (map : List (String × α)) :
    insert key (f value) (map.map fun entry => (entry.1, f entry.2)) =
      (insert key value map).map fun entry => (entry.1, f entry.2) := by
  induction map with
  | nil => rfl
  | cons head rest ih =>
    obtain ⟨k, v⟩ := head
    by_cases same : key = k
    · simp [insert, same]
    · by_cases below : key < k
      · simp [insert, same, below]
      · simpa [insert, same, below] using ih

theorem erase_map (f : α → β) (key : String) (map : List (String × α)) :
    erase key (map.map fun entry => (entry.1, f entry.2)) =
      (erase key map).map fun entry => (entry.1, f entry.2) := by
  induction map with
  | nil => rfl
  | cons head rest ih =>
    obtain ⟨k, v⟩ := head
    by_cases same : k = key
    · simp [erase, same]
    · simpa [erase, same] using ih

end Ascending

abbrev Records := List (String × Collab)

namespace Records

def rows (records : Records) : Table CollabRow :=
  records.map fun entry => (entry.1, entry.2.row)

/-- The map stands for records that can be read back from their rows. -/
structure Sound (records : Records) : Prop where
  ascending : Ascending records
  named : ∀ entry ∈ records, entry.1 = entry.2.name
  formed : ∀ entry ∈ records, entry.2.Formed
  plain : ∀ entry ∈ records, entry.2.Plain

theorem sound_nil : Sound [] := by
  constructor
  · exact Ascending.nil
  all_goals exact fun entry member => nomatch member

theorem Sound.insert {records : Records} (sound : records.Sound) {collab : Collab}
    (formed : collab.Formed) (plain : collab.Plain) :
    Sound (Ascending.insert collab.name collab records) := by
  have each {P : String × Collab → Prop} (new : P (collab.name, collab))
      (old : ∀ entry ∈ records, P entry) :
      ∀ entry ∈ Ascending.insert collab.name collab records, P entry := by
    intro entry member
    rcases Ascending.mem_insert member with rfl | inRecords
    · exact new
    · exact old entry inRecords
  exact ⟨Ascending.insert_ascending sound.ascending _ _, each rfl sound.named,
    each formed sound.formed, each plain sound.plain⟩

theorem Sound.erase {records : Records} (sound : records.Sound) (name : String) :
    Sound (Ascending.erase name records) := by
  have within := (Ascending.erase_sublist name records).subset
  exact ⟨Ascending.erase_ascending sound.ascending name,
    fun entry member => sound.named entry (within member),
    fun entry member => sound.formed entry (within member),
    fun entry member => sound.plain entry (within member)⟩

theorem Sound.read_row {records : Records} (sound : records.Sound) {entry : String × Collab}
    (member : entry ∈ records) : entry.2.row.read = .ok entry.2 := by
  have read := Collab.read_text (sound.formed entry member) (sound.plain entry member)
  simp [CollabRow.read, Collab.row, read]

theorem Sound.find?_mem {records : Records} (sound : records.Sound) {name : String}
    {collab : Collab} (found : Ascending.find? name records = some collab) :
    (name, collab) ∈ records := (Ascending.find?_eq_some_iff sound.ascending name collab).1 found

theorem Sound.find?_name {records : Records} (sound : records.Sound) {name : String}
    {collab : Collab} (found : Ascending.find? name records = some collab) : collab.name = name :=
  (sound.named _ (sound.find?_mem found)).symm

end Records

namespace Database

open Call

def withRecords (database : Database) (records : Records) : Database :=
  { database with collabs := some records.rows }

/-- The rows of the database are those of the records. -/
def Keeps (database : Database) (records : Records) : Prop :=
  database.collabs = some records.rows ∧ records.Sound

variable {database : Database} {records : Records}

theorem Keeps.withRecords {after : Records} (sound : after.Sound) :
    (database.withRecords after).Keeps after := ⟨rfl, sound⟩

theorem outcome_collabRows (keeps : database.Keeps records) :
    outcome collabRows database = (.ok records.rows, database) := by
  simp [collabRows, outcome_bind, rowsOf, keeps.1]

theorem outcome_findCollab (keeps : database.Keeps records) (name : String) :
    outcome (findCollab name) database = (.ok (Ascending.find? name records), database) := by
  rw [findCollab, outcome_bind, outcome_collabRows keeps]
  simp only [Records.rows, Ascending.find?_map]
  cases found : Ascending.find? name records with
  | none => rfl
  | some collab =>
    have read := keeps.2.read_row (keeps.2.find?_mem found)
    simp [read]

theorem outcome_listCollabs (keeps : database.Keeps records) :
    outcome listCollabs database = (.ok (records.map (·.2)), database) := by
  have read : records.rows.mapM (fun row => row.2.read) = .ok (records.map (·.2)) := by
    rw [Except.mapM_eq_ok, Records.rows, List.forall₂_map_left_iff, List.forall₂_map_right_iff,
      List.forall₂_same]
    exact fun entry member => keeps.2.read_row member
  rw [listCollabs, outcome_bind, outcome_collabRows keeps]
  simp [read]

theorem outcome_createCollab (keeps : database.Keeps records) (collab : Collab) :
    outcome (createCollab collab) database =
      if (Ascending.find? collab.name records).isSome then
        (.error (.engine (.repeatedKey collabTable "name")), database)
      else (.ok (), database.withRecords (Ascending.insert collab.name collab records)) := by
  rw [createCollab, outcome_bind, outcome_collabRows keeps]
  simp only [Records.rows, Ascending.find?_map, Option.isSome_map]
  split
  next => rfl
  next => simp [setCollabRows, withRecords, Records.rows, Ascending.insert_map]

theorem outcome_updateCollab (keeps : database.Keeps records) (collab : Collab) :
    outcome (updateCollab collab) database =
      if (Ascending.find? collab.name records).isNone then
        (.error (.serialization ("Collab not found: " ++ collab.name)), database)
      else (.ok (), database.withRecords (Ascending.insert collab.name collab records)) := by
  rw [updateCollab, outcome_bind, outcome_collabRows keeps]
  simp only [Records.rows, Ascending.find?_map, Option.isNone_map]
  split
  next => rfl
  next => simp [setCollabRows, withRecords, Records.rows, Ascending.insert_map]

theorem outcome_deleteCollab (keeps : database.Keeps records) (collab : Collab) :
    outcome (deleteCollab collab) database =
      if (Ascending.find? collab.name records).isNone then (.ok false, database)
      else (.ok true, database.withRecords (Ascending.erase collab.name records)) := by
  rw [deleteCollab, outcome_bind, outcome_collabRows keeps]
  simp only [Records.rows, Ascending.find?_map, Option.isNone_map]
  split
  next => rfl
  next => simp [setCollabRows, withRecords, Records.rows, Ascending.erase_map]

end Database

end SignalExchange
