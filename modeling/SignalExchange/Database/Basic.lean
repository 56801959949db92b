import SignalExchange.Ascending
import SignalExchange.Database.Fault
import SignalExchange.Database.Timestamp

/-! The database: three tables, any of which may be missing, and the version of its schema.

The rows of a table ascend by key. A failed call leaves the database as it was.
-/

set_option autoImplicit false

namespace SignalExchange

/-- The exchange and the state of a record stand beside its text, for listings. -/
structure CollabRow where
  api : String
  enabled : Bool
  data : String
  deriving DecidableEq, Repr

/-- When an extension was added: by the program itself, or at a time that a text tells. -/
inductive AddedAt where
  | recorded
  | text (raw : String)
  deriving DecidableEq, Repr

abbrev Table (α : Type) := List (String × α)

structure Database where
  version : Int
  collabs : Option (Table CollabRow)
  extensions : Option (Table AddedAt)
  settings : Option (Table String)
  deriving DecidableEq, Repr

abbrev DatabaseM := ExceptT StoreError (StateM Database)

namespace Database

def collabTable : String := "collabs"

def extensionTable : String := "extensions"

def settingTable : String := "settings"

def blank : Database := ⟨0, none, none, none⟩

/-- Gives the schema a version, for which a database has 32 bits with a sign. A number that does not
fit is taken for zero. -/
def setVersion (database : Database) (version : Int) : Database :=
  { database with
    version := if -2147483648 ≤ version ∧ version ≤ 2147483647 then version else 0 }

def currentVersion : Int := 1

/-- Creates the tables that an older database lacks; newer databases are refused. -/
def migrate (database : Database) : Except StoreError Database :=
  if currentVersion < database.version then
    .error (.migration (s!"database schema version {database.version} is newer than " ++
      s!"supported version {currentVersion}"))
  else if database.version < currentVersion then
    .ok ⟨currentVersion, database.collabs.or (some []), database.extensions.or (some []),
      database.settings.or (some [])⟩
  else .ok database

def empty : Database := ⟨currentVersion, some [], some [], some []⟩

/-- The names of the tables and of the index on the exchanges of records. -/
def objects (database : Database) : List String :=
  (if database.collabs.isSome then [collabTable] else []) ++
  (if database.extensions.isSome then [extensionTable] else []) ++
  (if database.collabs.isSome then ["idx_collabs_api"] else []) ++
  (if database.settings.isSome then [settingTable] else [])

/-- Drops a table, the name of which may be in capitals. -/
def drop (table : String) : DatabaseM Unit := do
  let database ← get
  let name := table.toLower
  if name = collabTable ∧ database.collabs.isSome then set { database with collabs := none }
  else if name = extensionTable ∧ database.extensions.isSome then
    set { database with extensions := none }
  else if name = settingTable ∧ database.settings.isSome then
    set { database with settings := none }
  else throw (.engine (.noSuchTable table))

def rowsOf {α : Type} (name : String) (table : Option (Table α)) : DatabaseM (Table α) :=
  match table with
  | some rows => return rows
  | none => throw (.engine (.noSuchTable name))

def collabRows : DatabaseM (Table CollabRow) := do
  rowsOf collabTable (← get).collabs

def extensionRows : DatabaseM (Table AddedAt) := do
  rowsOf extensionTable (← get).extensions

def settingRows : DatabaseM (Table String) := do
  rowsOf settingTable (← get).settings

def setCollabRows (rows : Table CollabRow) : DatabaseM Unit :=
  modify fun database => { database with collabs := some rows }

def setExtensionRows (rows : Table AddedAt) : DatabaseM Unit :=
  modify fun database => { database with extensions := some rows }

def setSettingRows (rows : Table String) : DatabaseM Unit :=
  modify fun database => { database with settings := some rows }

/-! Rows as they are, whatever they hold -/

def putCollabRow (name : String) (row : CollabRow) : DatabaseM Unit := do
  setCollabRows (Ascending.insert name row (← collabRows))

def putExtensionRow (module : String) (addedAt : AddedAt) : DatabaseM Unit := do
  setExtensionRows (Ascending.insert module addedAt (← extensionRows))

def putSettingRow (key value : String) : DatabaseM Unit := do
  setSettingRows (Ascending.insert key value (← settingRows))

end Database

end SignalExchange
