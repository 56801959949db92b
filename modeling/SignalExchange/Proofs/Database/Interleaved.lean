import SignalExchange.Proofs.Database.Rows
import SignalExchange.Proofs.Database.SettingTable
import SignalExchange.Proofs.Json.Typed
import SignalExchange.Proofs.Programs

/-! Settings that are written among calls for records and extensions.

What a call for records or extensions does is the same whatever the settings are, and it leaves them
as they are. Under each key the settings therefore hold what was written there last, and the records
and extensions are what they would be without any setting.
-/

set_option autoImplicit false

namespace SignalExchange

open Call

namespace Database

/-! Calls that do not look at settings -/

def withSettings (database : Database) (settings : Option (Table String)) : Database :=
  { database with settings := settings }

section

variable {ε δ α β : Type}

/-- The call does the same with other settings, and leaves them. -/
def IgnoresSettings (action : ExceptT ε (StateM Database) α) : Prop :=
  ∀ database settings, outcome action (database.withSettings settings) =
    ((outcome action database).1, (outcome action database).2.withSettings settings)

namespace IgnoresSettings

theorem pure (value : α) : IgnoresSettings (pure value : ExceptT ε (StateM Database) α) :=
  fun _ _ => rfl

theorem throw (error : ε) : IgnoresSettings (throw error : ExceptT ε (StateM Database) α) :=
  fun _ _ => rfl

theorem ofExcept (result : Except ε α) :
    IgnoresSettings (MonadExcept.ofExcept result : ExceptT ε (StateM Database) α) := by
  intro database settings
  rw [outcome_ofExcept, outcome_ofExcept]

theorem bind {action : ExceptT ε (StateM Database) α} {next : α → ExceptT ε (StateM Database) β}
    (first : IgnoresSettings action) (rest : ∀ value, IgnoresSettings (next value)) :
    IgnoresSettings (action >>= next) := by
  intro database settings
  rw [outcome_bind, outcome_bind, first]
  rcases outcome action database with ⟨result, middle⟩
  cases result with
  | error error => rfl
  | ok value => exact rest value middle settings

theorem map {action : ExceptT ε (StateM Database) α} (ignores : IgnoresSettings action)
    (f : α → β) : IgnoresSettings (f <$> action) := by
  intro database settings
  rw [outcome_map, outcome_map, ignores]

theorem onStore {action : ExceptT StoreError (StateM Database) α}
    (ignores : IgnoresSettings action) : IgnoresSettings (ConfigError.onStore action) := by
  intro database settings
  rw [outcome_onStore, outcome_onStore, ignores]

-- As for calls that maintain a kind of state, the second program of the relation is not looked at.
theorem congruence :
    Congruence fun α (program _ : ExceptT ConfigError (StateM Database) α) =>
      IgnoresSettings program := ⟨.pure, .throw, .bind⟩

end IgnoresSettings

end

theorem ignores_tableRows {α : Type} (name : String) {table : Database → Option (Table α)}
    (apart : ∀ database settings, table (withSettings database settings) = table database) :
    IgnoresSettings (do rowsOf name (table (← get))) := by
  intro database settings
  rw [outcome_tableRows, outcome_tableRows, apart]

theorem ignores_collabRows : IgnoresSettings collabRows :=
  ignores_tableRows collabTable fun _ _ => rfl

theorem ignores_extensionRows : IgnoresSettings extensionRows :=
  ignores_tableRows extensionTable fun _ _ => rfl

theorem ignores_setCollabRows (rows : Table CollabRow) : IgnoresSettings (setCollabRows rows) :=
  fun _ _ => rfl

theorem ignores_setExtensionRows (rows : Table AddedAt) :
    IgnoresSettings (setExtensionRows rows) := fun _ _ => rfl

/-! Records -/

theorem ignores_findCollab (name : String) : IgnoresSettings (findCollab name) := by
  refine ignores_collabRows.bind fun rows => ?_
  split
  · exact .pure _
  · exact (IgnoresSettings.ofExcept _).bind fun _ => .pure _

theorem ignores_listCollabs : IgnoresSettings listCollabs :=
  ignores_collabRows.bind fun _ => .ofExcept _

theorem ignores_createCollab (collab : Collab) : IgnoresSettings (createCollab collab) := by
  refine ignores_collabRows.bind fun rows => ?_
  split
  · exact (IgnoresSettings.throw _).bind fun _ => ignores_setCollabRows _
  · exact ignores_setCollabRows _

theorem ignores_updateCollab (collab : Collab) : IgnoresSettings (updateCollab collab) := by
  refine ignores_collabRows.bind fun rows => ?_
  split
  · exact (IgnoresSettings.throw _).bind fun _ => ignores_setCollabRows _
  · exact ignores_setCollabRows _

theorem ignores_deleteCollab (collab : Collab) : IgnoresSettings (deleteCollab collab) := by
  refine ignores_collabRows.bind fun rows => ?_
  split
  · exact .pure _
  · exact (ignores_setCollabRows _).bind fun _ => .pure _

theorem ignores_collabStore :
    CollabStore.Related (fun α (program _ : ExceptT ConfigError (StateM Database) α) =>
      IgnoresSettings program) collabStore collabStore :=
  ⟨fun name => (ignores_findCollab name).onStore, fun collab => (ignores_createCollab collab).onStore,
    fun collab => (ignores_updateCollab collab).onStore,
    fun collab => (ignores_deleteCollab collab).onStore⟩

/-! Extensions -/

theorem ignores_listExtensions : IgnoresSettings listExtensions := ignores_extensionRows.map _

theorem ignores_extensionAddedAt (module : String) : IgnoresSettings (extensionAddedAt module) := by
  refine ignores_extensionRows.bind fun rows => ?_
  split
  · exact .pure _
  · exact (IgnoresSettings.ofExcept _).bind fun _ => .pure _

theorem ignores_hasExtension (module : String) : IgnoresSettings (hasExtension module) :=
  (ignores_extensionAddedAt module).map _

theorem ignores_addExtension (module : String) : IgnoresSettings (addExtension module) := by
  refine ignores_extensionRows.bind fun rows => ?_
  split
  · exact .pure _
  · exact (ignores_setExtensionRows _).bind fun _ => .pure _

theorem ignores_removeExtension (module : String) : IgnoresSettings (removeExtension module) := by
  refine ignores_extensionRows.bind fun rows => ?_
  split
  · exact .pure _
  · exact (ignores_setExtensionRows _).bind fun _ => .pure _

theorem ignores_extensionStore :
    ExtensionStore.Related (fun α (program _ : ExceptT ConfigError (StateM Database) α) =>
      IgnoresSettings program) extensionStore extensionStore :=
  ⟨fun module => (ignores_hasExtension module).onStore,
    fun module => (ignores_addExtension module).onStore,
    fun module => (ignores_removeExtension module).onStore⟩

end Database

/-! The calls on a database -/

/-- A call for records or extensions: to a table, or by the rules for what it holds. -/
inductive RowCall where
  | findCollab (name : String)
  | listCollabs
  | createCollab (collab : Collab)
  | updateCollab (collab : Collab)
  | deleteCollab (collab : Collab)
  | applyEdit (schema : Schema) (edit : ResolvedEdit)
  | importAs (name : String) (schema : Schema) (fields : EditSet)
  | removeCollab (name : String)
  | listExtensions
  | extensionAddedAt (module : String)
  | hasExtension (module : String)
  | addExtension (module : String)
  | removeExtension (module : String)
  | loadWorkspace (catalog : Catalog)
  | joinExtension (workspace : Workspace) (module : String)
  | leaveExtension (module : String)

namespace RowCall

open Database

def after (database : Database) : RowCall → Database
  | findCollab name => (outcome (collabStore.find? name) database).2
  | listCollabs => (outcome collabStore.list database).2
  | createCollab collab => (outcome (collabStore.create collab) database).2
  | updateCollab collab => (outcome (collabStore.update collab) database).2
  | deleteCollab collab => (outcome (collabStore.delete collab) database).2
  | applyEdit schema edit => (outcome (collabStore.apply schema edit) database).2
  | importAs name schema fields => (outcome (collabStore.importAs name schema fields) database).2
  | removeCollab name => (outcome (collabStore.remove name) database).2
  | listExtensions => (outcome extensionStore.list database).2
  | extensionAddedAt module => (outcome (Database.extensionAddedAt module) database).2
  | hasExtension module => (outcome (extensionStore.contains module) database).2
  | addExtension module => (outcome (extensionStore.add module) database).2
  | removeExtension module => (outcome (extensionStore.remove module) database).2
  | loadWorkspace catalog => (outcome (extensionStore.load catalog) database).2
  | joinExtension workspace module => (outcome (extensionStore.join workspace module) database).2
  | leaveExtension module => (outcome (extensionStore.leave module) database).2

theorem after_withSettings (call : RowCall) (database : Database)
    (settings : Option (Table String)) :
    call.after (database.withSettings settings) = (call.after database).withSettings settings := by
  have step {ε α : Type} {action : ExceptT ε (StateM Database) α}
      (ignores : IgnoresSettings action) :
      (outcome action (database.withSettings settings)).2 =
        (outcome action database).2.withSettings settings :=
    congrArg Prod.snd (ignores database settings)
  have records := ignores_collabStore
  have extensions := ignores_extensionStore
  have puts := IgnoresSettings.congruence
  -- Calls to a table ignore the settings, and so do the rules that are made of such calls.
  cases call with
  | findCollab name => exact step (ignores_findCollab name)
  | listCollabs => exact step ignores_listCollabs
  | createCollab collab => exact step (ignores_createCollab collab)
  | updateCollab collab => exact step (ignores_updateCollab collab)
  | deleteCollab collab => exact step (ignores_deleteCollab collab)
  | applyEdit schema edit => exact step (records.apply puts schema edit)
  | importAs name schema fields => exact step (records.importAs puts name schema fields)
  | removeCollab name => exact step (records.remove puts name)
  | listExtensions => exact step ignores_listExtensions
  | extensionAddedAt module => exact step (ignores_extensionAddedAt module)
  | hasExtension module => exact step (ignores_hasExtension module)
  | addExtension module => exact step (ignores_addExtension module)
  | removeExtension module => exact step (ignores_removeExtension module)
  | loadWorkspace catalog =>
    exact step (ignores_listExtensions.onStore.bind fun _ => .ofExcept _)
  | joinExtension workspace module => exact step (extensions.join puts workspace module)
  | leaveExtension module => exact step (extensions.leave puts module)

theorem settings_after (call : RowCall) (database : Database) :
    (call.after database).settings = database.settings := by
  have same : call.after database = (call.after database).withSettings database.settings :=
    call.after_withSettings database database.settings
  rw [same]
  rfl

end RowCall

/-- A setting is written, or records or extensions are called for. -/
inductive DatabaseCall where
  | set (key : String) (value : Json)
  | rows (call : RowCall)

namespace DatabaseCall

open Database

def after (database : Database) : DatabaseCall → Database
  | set key value => (outcome (setSetting key value) database).2
  | rows call => call.after database

def run (database : Database) (calls : List DatabaseCall) : Database := calls.foldl after database

theorem run_concat (database : Database) (calls : List DatabaseCall) (last : DatabaseCall) :
    run database (calls ++ [last]) = last.after (run database calls) :=
  List.foldl_concat ..

def written? (key : String) : DatabaseCall → Option Json
  | set other value => if other = key then some value else none
  | rows _ => none

/-- The value that was last written under a key. -/
def lastWritten (key : String) (calls : List DatabaseCall) : Option Json :=
  (calls.filterMap (written? key)).getLast?

theorem lastWritten_concat (key : String) (calls : List DatabaseCall) (last : DatabaseCall) :
    lastWritten key (calls ++ [last]) = (last.written? key).or (lastWritten key calls) := by
  simp only [lastWritten, List.filterMap_append, List.getLast?_append, List.filterMap_cons,
    List.filterMap_nil]
  cases last.written? key <;> rfl

def isRows : DatabaseCall → Bool
  | set _ _ => false
  | rows _ => true

/-! The settings -/

theorem settings_after {database : Database} {entries : Table String}
    (there : database.settings = some entries) (call : DatabaseCall) :
    ∃ others, (call.after database).settings = some others ∧ ∀ key,
      Ascending.find? key others =
        ((call.written? key).map Json.text).or (Ascending.find? key entries) := by
  cases call with
  | set other value =>
    rw [after, outcome_setSetting, there]
    refine ⟨_, rfl, fun key => ?_⟩
    by_cases same : other = key
    · simp [written?, same]
    · simp [written?, same, Ascending.find?_insert_of_ne (Ne.symm same)]
  | rows call =>
    exact ⟨entries, (call.settings_after database).trans there, fun key => rfl⟩

theorem settings_run {database : Database} {entries : Table String}
    (there : database.settings = some entries) (calls : List DatabaseCall) :
    ∃ others, (run database calls).settings = some others ∧ ∀ key,
      Ascending.find? key others =
        ((lastWritten key calls).map Json.text).or (Ascending.find? key entries) := by
  induction calls using List.reverseRecOn with
  | nil => exact ⟨entries, there, fun key => rfl⟩
  | append_singleton calls last ih =>
    obtain ⟨before, held, each⟩ := ih
    obtain ⟨others, holds, step⟩ := settings_after held last
    refine ⟨others, by rw [run_concat, holds], fun key => ?_⟩
    rw [step, each, lastWritten_concat, Option.map_or, Option.or_assoc]

/-! The records and the extensions -/

theorem after_set_withSettings (key : String) (value : Json) (database : Database)
    (settings : Option (Table String)) :
    (after database (set key value)).withSettings settings = database.withSettings settings := by
  rw [after, outcome_setSetting]
  cases database.settings <;> rfl

theorem run_withSettings (database : Database) (calls : List DatabaseCall)
    (settings : Option (Table String)) :
    (run database calls).withSettings settings =
      (run database (calls.filter isRows)).withSettings settings := by
  induction calls using List.reverseRecOn with
  | nil => rfl
  | append_singleton calls last ih =>
    rw [run_concat, List.filter_append]
    cases last with
    | set key value => simpa [isRows, after_set_withSettings] using ih
    | rows call =>
      have kept : [rows call].filter isRows = [rows call] := rfl
      rw [kept, run_concat, after, after, ← call.after_withSettings, ih, call.after_withSettings]

theorem mem_of_lastWritten {key : String} {calls : List DatabaseCall} {value : Json}
    (last : lastWritten key calls = some value) : set key value ∈ calls := by
  obtain ⟨call, member, written⟩ := List.mem_filterMap.1 (List.mem_of_getLast? last)
  cases call with
  | set other _ =>
    by_cases same : other = key
    · subst same
      simp only [written?, if_true, Option.some.injEq] at written
      exact written ▸ member
    · simp [written?, same] at written
  | rows call => cases written

end DatabaseCall

/-! The shapes in which settings are read -/

inductive SettingKind : Type → Type where
  | string : SettingKind String
  | integer : SettingKind Int
  | stringPair : SettingKind (String × String)
  | document : SettingKind Json

namespace SettingKind

open Json

variable {α : Type}

def shape : {α : Type} → SettingKind α → SettingShape α
  | _, string => .string
  | _, integer => .integer
  | _, stringPair => .stringPair
  | _, document => .document

/-- The value that a document is at the shape. -/
def view : {α : Type} → SettingKind α → Json → Option α
  | _, string => string?
  | _, integer => integer?
  | _, stringPair => pair? string? string?
  | _, document => some

theorem toOption_readWith_text (kind : SettingKind α) {v : Json} (exact_ : v.Exact)
    (shallow : v.depth ≤ nestingLimit) :
    (readWith (kind.shape nestingLimit) v.text).toOption = kind.view v := by
  have holds := readWith_written exact_ shallow
  cases kind with
  | string => exact toOption_readWith (follows_stringValue _) holds
  | integer => exact toOption_readWith (follows_integerValue _) holds
  | stringPair => exact toOption_readWith (follows_pair follows_stringValue follows_stringValue _) holds
  | document => exact Except.toOption_eq_some.2 (read_text exact_ shallow)

/-- What reading a setting gives when this value was written last. -/
inductive Reading (kind : SettingKind α) (key : String) (value : Json) :
    Except StoreError (Option α) → Prop where
  | value {shown : α} (fits : kind.view value = some shown) : Reading kind key value (.ok (some shown))
  | refused (other : kind.view value = none) (error : ReadError) :
      Reading kind key value (.error (.serialization
        s!"Failed to parse setting '{key}': {error.message}"))

end SettingKind

namespace DatabaseCall

open Database

/-- Under each key the value that was last written there is read back at every shape that it has, and
any other shape is an error of its text. Calls for records and extensions leave all settings, and
writing settings makes no difference to records and extensions. -/
theorem getSetting_run {database : Database} {entries : Table String}
    (there : database.settings = some entries) {calls : List DatabaseCall}
    (writable : ∀ key value, set key value ∈ calls → value.Exact ∧ value.depth < 128) :
    (∀ {α : Type} (kind : SettingKind α) (key : String), ∃ result,
      outcome (getSetting kind.shape key) (run database calls) = (result, run database calls) ∧
      (∀ value, lastWritten key calls = some value → kind.Reading key value result) ∧
      (lastWritten key calls = none → Ascending.find? key entries = none → result = .ok none)) ∧
    (∀ call start, (after start (rows call)).settings = start.settings) ∧
    (∀ key value start, (after start (set key value)).collabs = start.collabs ∧
      (after start (set key value)).extensions = start.extensions) ∧
    (run database calls).collabs = (run database (calls.filter isRows)).collabs ∧
    (run database calls).extensions = (run database (calls.filter isRows)).extensions := by
  refine ⟨fun {α} kind key => ?_, fun call start => call.settings_after start,
    fun key value start => ?_, ?_, ?_⟩
  · obtain ⟨others, held, each⟩ := settings_run there calls
    have each := each key
    refine ⟨_, by rw [outcome_getSetting, held], ?_, ?_⟩
    · intro value last
      obtain ⟨exact_, shallow⟩ := writable key value (mem_of_lastWritten last)
      have found : Ascending.find? key others = some value.text := by simpa [last] using each
      -- The text is that of the value, and at a shape it is read as what the value shows there.
      have shown := kind.toOption_readWith_text exact_ (Nat.le_of_lt_succ shallow)
      simp only [found]
      cases view : kind.view value with
      | some value_ =>
        rw [Except.toOption_eq_some.1 (shown.trans view)]
        exact .value view
      | none =>
        obtain ⟨error, failed⟩ := Except.toOption_eq_none.1 (shown.trans view)
        rw [failed]
        exact .refused view error
    · intro last unset
      simp [each, last, unset]
  · have same := after_set_withSettings key value start none
    exact ⟨congrArg (·.collabs) same, congrArg (·.extensions) same⟩
  · exact congrArg (·.collabs) (run_withSettings database calls none)
  · exact congrArg (·.extensions) (run_withSettings database calls none)

def tokenAmongOthers : List DatabaseCall :=
  [.set tokenKey (.array [.string "u", .string "p"]), .rows (.addExtension "m"),
    .set tokenKey (.string "1|a"), .rows .listCollabs, .set credentialsKey .null]

theorem token_among_others :
    (outcome (getSetting .string tokenKey) (run .empty tokenAmongOthers)).1 = .ok (some "1|a") ∧
    (∃ message, (outcome (getSetting .stringPair tokenKey) (run .empty tokenAmongOthers)).1 =
      .error (.serialization message)) ∧
    (outcome (getSetting .string "other") (run .empty tokenAmongOthers)).1 = .ok none ∧
    (run .empty tokenAmongOthers).extensions = (run .empty [.rows (.addExtension "m"),
      .rows .listCollabs]).extensions := by
  have there : Database.empty.settings = some [] := rfl
  have writable : ∀ key value, set key value ∈ tokenAmongOthers →
      value.Exact ∧ value.depth < 128 := by
    intro key value member
    simp only [tokenAmongOthers, List.mem_cons, set.injEq, reduceCtorEq, false_or, or_false,
      List.not_mem_nil] at member
    rcases member with ⟨-, rfl⟩ | ⟨-, rfl⟩ | ⟨-, rfl⟩
    · exact ⟨⟨trivial, trivial, trivial⟩, by decide⟩
    · exact ⟨trivial, by decide⟩
    · exact ⟨trivial, by decide⟩
  obtain ⟨reads, -, -, -, extensions⟩ := getSetting_run there writable
  obtain ⟨text, ranText, fromText, -⟩ := reads .string tokenKey
  obtain ⟨pair, ranPair, fromPair, -⟩ := reads .stringPair tokenKey
  obtain ⟨other, ranOther, -, unset⟩ := reads .string "other"
  have last : lastWritten tokenKey tokenAmongOthers = some (.string "1|a") := rfl
  refine ⟨?_, ?_, ?_, extensions⟩
  · change (outcome (getSetting SettingKind.string.shape tokenKey) _).1 = _
    rw [ranText]
    cases fromText _ last with
    | value fits =>
      cases fits
      rfl
    | refused other => cases other
  · change ∃ message, (outcome (getSetting SettingKind.stringPair.shape tokenKey) _).1 = _
    rw [ranPair]
    cases fromPair _ last with
    | value fits => cases fits
    | refused _ error => exact ⟨_, rfl⟩
  · change (outcome (getSetting SettingKind.string.shape "other") _).1 = _
    rw [ranOther]
    exact unset rfl rfl

end DatabaseCall

end SignalExchange
