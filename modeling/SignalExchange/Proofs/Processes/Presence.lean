import SignalExchange.Proofs.Collab.Verdict
import SignalExchange.Proofs.Database.Rows

/-! What single calls to the database do to the presence of rows.

Whatever a call was made for, it tells by its result whether it wrote: a row is created or added only
where there was none, and edited, deleted or removed only where there was one.
-/

set_option autoImplicit false

namespace SignalExchange

open Call

/-- What an operation did, by the name of its record or module. -/
inductive Effect where
  | created (name : String)
  | edited (name : String)
  | deleted (name : String)
  | added (module : String)
  | removed (module : String)
  deriving DecidableEq, Repr

namespace Effect

def place : Effect → TableName × String
  | created name | edited name | deleted name => (.collabs, name)
  | added module | removed module => (.extensions, module)

def finds : Effect → Bool
  | created _ | added _ => false
  | edited _ | deleted _ | removed _ => true

def leaves : Effect → Bool
  | created _ | edited _ | added _ => true
  | deleted _ | removed _ => false

/-- Presence changes at the place of the effect, and there as the effect says. -/
structure Moves (effect : Effect) (before after : TableName × String → Bool) : Prop where
  found : before effect.place = effect.finds
  left : after = Function.update before effect.place effect.leaves

end Effect

namespace Database

def has (database : Database) (place : TableName × String) : Bool :=
  (database.rows place).isSome

/-- The tables of records and of modules ascend, and each record is under its own name. -/
structure Orderly (database : Database) : Prop where
  titled : database.Titled
  modules : ∃ rows, database.extensions = some rows ∧ Ascending rows

variable {database : Database}

theorem has_collabs (name : String) :
    database.has (.collabs, name) = (rowIn database.collabs name).isSome := Option.isSome_map

theorem has_extensions (module : String) :
    database.has (.extensions, module) = (rowIn database.extensions module).isSome :=
  Option.isSome_map

theorem has_of_collabs {table : Option (Table CollabRow)} {name : String} {left : Bool}
    (others : ∀ other, other ≠ name → rowIn table other = rowIn database.collabs other)
    (here : (rowIn table name).isSome = left) :
    has { database with collabs := table } =
      Function.update database.has (.collabs, name) left := by
  funext place
  obtain ⟨_ | _ | _, other⟩ := place
  case collabs =>
    rw [has_collabs]
    by_cases same : other = name
    · subst same
      rw [Function.update_self, here]
    · rw [others other same, ← has_collabs, Function.update_of_ne (by simpa using same)]
  all_goals
    rw [Function.update_of_ne (by simp)]
    rfl

theorem has_of_extensions {table : Option (Table AddedAt)} {module : String} {left : Bool}
    (others : ∀ other, other ≠ module → rowIn table other = rowIn database.extensions other)
    (here : (rowIn table module).isSome = left) :
    has { database with extensions := table } =
      Function.update database.has (.extensions, module) left := by
  funext place
  obtain ⟨_ | _ | _, other⟩ := place
  case extensions =>
    rw [has_extensions]
    by_cases same : other = module
    · subst same
      rw [Function.update_self, here]
    · rw [others other same, ← has_extensions, Function.update_of_ne (by simpa using same)]
  all_goals
    rw [Function.update_of_ne (by simp)]
    rfl

theorem isSome_rowIn_insert {α : Type} (key : String) (value : α) (entries : Table α) :
    (rowIn (some (Ascending.insert key value entries)) key).isSome = true :=
  congrArg Option.isSome (Ascending.find?_insert_self key value entries)

theorem isSome_rowIn_erase {α : Type} {entries : Table α} (ascending : Ascending entries)
    (key : String) : (rowIn (some (Ascending.erase key entries)) key).isSome = false :=
  congrArg Option.isSome (Ascending.find?_erase_self ascending key)

theorem Orderly.withCollabs {rows : Table CollabRow} (orderly : database.Orderly)
    (titled : Titled { database with collabs := some rows }) :
    Orderly { database with collabs := some rows } := ⟨titled, orderly.modules⟩

theorem Orderly.withExtensions {rows : Table AddedAt} (orderly : database.Orderly)
    (ascending : Ascending rows) : Orderly { database with extensions := some rows } := by
  obtain ⟨records, there, titled⟩ := orderly.titled
  exact ⟨⟨records, there, titled⟩, rows, rfl, ascending⟩

section

variable {records : Table CollabRow} (there : database.collabs = some records)

include there

theorem has_record (name : String) :
    database.has (.collabs, name) = (Ascending.find? name records).isSome := by
  rw [has_collabs, there]
  rfl

theorem has_withRecord (collab : Collab) :
    (database.withRecord records collab).has =
      Function.update database.has (.collabs, collab.name) true :=
  has_of_collabs (fun _ differs => by rw [there, rowIn_insert_of_ne differs])
    (isSome_rowIn_insert _ _ _)

theorem has_withoutRecord (ascending : Ascending records) (name : String) :
    has { database with collabs := some (Ascending.erase name records) } =
      Function.update database.has (.collabs, name) false :=
  has_of_collabs (fun _ differs => by rw [there, rowIn_erase_of_ne differs])
    (isSome_rowIn_erase ascending name)

end

section

variable {modules : Table AddedAt} (there : database.extensions = some modules)

include there

theorem has_module (module : String) :
    database.has (.extensions, module) = (Ascending.find? module modules).isSome := by
  rw [has_extensions, there]
  rfl

theorem has_withModule (module : String) (addedAt : AddedAt) :
    has { database with extensions := some (Ascending.insert module addedAt modules) } =
      Function.update database.has (.extensions, module) true :=
  has_of_extensions (fun _ differs => by rw [there, rowIn_insert_of_ne differs])
    (isSome_rowIn_insert _ _ _)

theorem has_withoutModule (ascending : Ascending modules) (module : String) :
    has { database with extensions := some (Ascending.erase module modules) } =
      Function.update database.has (.extensions, module) false :=
  has_of_extensions (fun _ differs => by rw [there, rowIn_erase_of_ne differs])
    (isSome_rowIn_erase ascending module)

end

/-! Single calls -/

/-- Presence changes under a call as its effect says, and stays as it was when it has none. -/
def Accounted (before after : Database) (effect? : Option Effect) : Prop :=
  after.Orderly ∧
    match effect? with
    | some effect => effect.Moves before.has after.has
    | none => after.has = before.has

/-- The result of the call tells its effect. -/
def Tells {α : Type} (action : DatabaseM α) (effect? : α → Option Effect) : Prop :=
  ∀ database, database.Orderly → Accounted database (outcome action database).2
    ((outcome action database).1.toOption.bind effect?)

theorem tells_findCollab (name : String) : Tells (findCollab name) fun _ => none := by
  intro database orderly
  obtain ⟨rows, result, -, ran, -⟩ := orderly.titled.sought name
  have ran : outcome (findCollab name) database = (result, database) := ran
  rw [ran]
  cases result with
  | error error => exact ⟨orderly, rfl⟩
  | ok held => exact ⟨orderly, rfl⟩

theorem name_of_findCollab {name : String} {collab : Collab} (orderly : database.Orderly)
    (found : (outcome (findCollab name) database).1 = .ok (some collab)) : collab.name = name := by
  obtain ⟨rows, result, -, ran, sought⟩ := orderly.titled.sought name
  have ran : outcome (findCollab name) database = (result, database) := ran
  rw [ran] at found
  cases found
  exact sought.named collab rfl

theorem tells_createCollab (collab : Collab) :
    Tells (createCollab collab) fun _ => some (.created collab.name) := by
  intro database orderly
  obtain ⟨rows, there, -⟩ := id orderly.titled
  cases found : Ascending.find? collab.name rows with
  | none =>
    have done : outcome (createCollab collab) database = (.ok (), database.withRecord rows collab) :=
      outcome_create_of_free there found
    rw [done]
    refine ⟨orderly.withCollabs (orderly.titled.insert there collab),
      ?_, has_withRecord there collab⟩
    rw [Effect.place, has_record there, found]
    rfl
  | some row =>
    have failed : outcome (createCollab collab) database =
        (.error (.engine (.repeatedKey collabTable "name")), database) := by
      rw [createCollab, outcome_bind, outcome_collabRows_of_some there]
      simp [found]
    rw [failed]
    exact ⟨orderly, rfl⟩

theorem tells_updateCollab (collab : Collab) :
    Tells (updateCollab collab) fun _ => some (.edited collab.name) := by
  intro database orderly
  obtain ⟨rows, there, -⟩ := id orderly.titled
  cases found : Ascending.find? collab.name rows with
  | none =>
    have failed : outcome (updateCollab collab) database =
        (.error (.serialization ("Collab not found: " ++ collab.name)), database) := by
      rw [updateCollab, outcome_bind, outcome_collabRows_of_some there]
      simp [found]
    rw [failed]
    exact ⟨orderly, rfl⟩
  | some row =>
    have done : outcome (updateCollab collab) database = (.ok (), database.withRecord rows collab) :=
      outcome_update_of_taken there (by simp [found])
    rw [done]
    refine ⟨orderly.withCollabs (orderly.titled.insert there collab),
      ?_, has_withRecord there collab⟩
    rw [Effect.place, has_record there, found]
    rfl

theorem tells_deleteCollab (collab : Collab) :
    Tells (deleteCollab collab) fun deleted =>
      if deleted then some (.deleted collab.name) else none := by
  intro database orderly
  obtain ⟨rows, there, ascending, -⟩ := id orderly.titled
  rw [deleteCollab, outcome_bind, outcome_collabRows_of_some there]
  cases found : Ascending.find? collab.name rows with
  | none =>
    simp only [found]
    exact ⟨orderly, rfl⟩
  | some row =>
    simp only [found]
    refine ⟨orderly.withCollabs (orderly.titled.erase there collab.name),
      ?_, has_withoutRecord there ascending collab.name⟩
    rw [Effect.place, has_record there, found]
    rfl

theorem tells_hasExtension (module : String) : Tells (hasExtension module) fun _ => none := by
  intro database orderly
  obtain ⟨rows, there, -⟩ := orderly.modules
  rw [outcome_hasExtension there]
  cases Ascending.find? module rows with
  | none => exact ⟨orderly, rfl⟩
  | some addedAt =>
    cases read : addedAt.read <;> exact ⟨orderly, by simp [read]⟩

theorem tells_addExtension (module : String) :
    Tells (addExtension module) fun added => if added then some (.added module) else none := by
  intro database orderly
  obtain ⟨rows, there, ascending⟩ := orderly.modules
  rw [outcome_addExtension there]
  cases found : Ascending.find? module rows with
  | some addedAt => exact ⟨orderly, rfl⟩
  | none =>
    refine ⟨orderly.withExtensions (Ascending.insert_ascending ascending _ _),
      ?_, has_withModule there module _⟩
    rw [Effect.place, has_module there, found]
    rfl

theorem tells_removeExtension (module : String) :
    Tells (removeExtension module) fun removed =>
      if removed then some (.removed module) else none := by
  intro database orderly
  obtain ⟨rows, there, ascending⟩ := orderly.modules
  rw [outcome_removeExtension there]
  cases found : Ascending.find? module rows with
  | none => exact ⟨orderly, rfl⟩
  | some addedAt =>
    refine ⟨orderly.withExtensions (Ascending.erase_ascending ascending _),
      ?_, has_withoutModule there ascending module⟩
    rw [Effect.place, has_module there, found]
    rfl

end Database

end SignalExchange
