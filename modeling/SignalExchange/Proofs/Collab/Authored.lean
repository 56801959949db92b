import SignalExchange.Proofs.Collab.History
import SignalExchange.Proofs.Programs

/-! Databases whose records were all written by the rules for records.

Each row is under the name of the record whose text it holds. A row need not give its record back,
for a record may hold doubles and be nested too deep, but whatever it gives has that name.
-/

set_option autoImplicit false

namespace SignalExchange

namespace Call

variable {ε σ α β : Type}

/-- Whether the call succeeds or fails, it leaves a state of the kind that it found. -/
def Maintains (kind : σ → Prop) (action : ExceptT ε (StateM σ) α) : Prop :=
  ∀ state, kind state → kind (outcome action state).2

variable {kind : σ → Prop}

theorem Maintains.pure (value : α) :
    Maintains kind (pure value : ExceptT ε (StateM σ) α) := fun _ holds => holds

theorem Maintains.throw (error : ε) :
    Maintains kind (throw error : ExceptT ε (StateM σ) α) := fun _ holds => holds

theorem Maintains.ofExcept (result : Except ε α) :
    Maintains kind (MonadExcept.ofExcept result : ExceptT ε (StateM σ) α) := by
  intro state holds
  rw [outcome_ofExcept]
  exact holds

theorem Maintains.bind {action : ExceptT ε (StateM σ) α} {next : α → ExceptT ε (StateM σ) β}
    (first : Maintains kind action) (rest : ∀ value, Maintains kind (next value)) :
    Maintains kind (action >>= next) := by
  intro state holds
  have here := first state holds
  rw [outcome_bind]
  generalize outcome action state = ran at here ⊢
  obtain ⟨result, middle⟩ := ran
  cases result with
  | error error => exact here
  | ok value => exact rest value middle here

theorem Maintains.map {action : ExceptT ε (StateM σ) α} (maintains : Maintains kind action)
    (f : α → β) : Maintains kind (f <$> action) := by
  intro state holds
  rw [outcome_map]
  exact maintains state holds

theorem Maintains.onStore {action : ExceptT StoreError (StateM σ) α}
    (maintains : Maintains kind action) : Maintains kind (ConfigError.onStore action) := by
  intro state holds
  rw [outcome_onStore]
  exact maintains state holds

-- There is only one store, so the second program of the relation is not looked at.
theorem maintains_congruence : Congruence fun α (program _ : ExceptT ConfigError (StateM σ) α) =>
    Maintains kind program := ⟨.pure, .throw, .bind⟩

end Call

open Call

/-! The rules for records -/

namespace CollabStore

/-- Every call that the rules for records make to the store leaves a state of the kind. -/
structure Maintains {σ : Type} (store : CollabStore (StateM σ)) (kind : σ → Prop) : Prop where
  find? : ∀ name, Call.Maintains kind (store.find? name)
  create : ∀ collab, Call.Maintains kind (store.create collab)
  update : ∀ collab, Call.Maintains kind (store.update collab)
  delete : ∀ collab, Call.Maintains kind (store.delete collab)

section

variable {σ : Type} {kind : σ → Prop} {store : CollabStore (StateM σ)}

theorem Maintains.related (maintains : store.Maintains kind) :
    Related (fun α (program _ : ExceptT ConfigError (StateM σ) α) =>
      Call.Maintains kind program) store store :=
  ⟨fun name => (maintains.find? name).onStore, fun collab => (maintains.create collab).onStore,
    fun collab => (maintains.update collab).onStore,
    fun collab => (maintains.delete collab).onStore⟩

theorem Maintains.perform (maintains : store.Maintains kind) (command : RecordCommand) :
    Call.Maintains kind (command.perform store) := by
  have calls := maintains.related
  cases command with
  | apply api own edit => exact (calls.apply maintains_congruence _ edit).bind fun _ => .pure _
  | importAs name api own fields =>
    exact (calls.importAs maintains_congruence name _ fields).bind fun _ => .pure _
  | remove name => exact (calls.remove maintains_congruence name).bind fun _ => .pure _

end

end CollabStore

/-! Rows under the names of their records -/

namespace Database

/-- The table of records is there, and each of its rows is under the name of its record. -/
def Titled (database : Database) : Prop :=
  ∃ rows, database.collabs = some rows ∧ Ascending rows ∧
    ∀ row ∈ rows, ∃ collab : Collab, row = (collab.name, collab.row)

theorem outcome_collabRows_of_some {database : Database} {rows : Table CollabRow}
    (there : database.collabs = some rows) :
    outcome collabRows database = (.ok rows, database) := by
  simp [collabRows, outcome_bind, rowsOf, there]

theorem Titled.insert {database : Database} {rows : Table CollabRow}
    (there : database.collabs = some rows) (titled : database.Titled) (collab : Collab) :
    Titled { database with collabs := some (Ascending.insert collab.name collab.row rows) } := by
  obtain ⟨_, same, ascending, each⟩ := titled
  cases there.symm.trans same
  refine ⟨_, rfl, Ascending.insert_ascending ascending _ _, fun row member => ?_⟩
  rcases Ascending.mem_insert member with new | old
  · exact ⟨collab, new⟩
  · exact each row old

theorem Titled.erase {database : Database} {rows : Table CollabRow}
    (there : database.collabs = some rows) (titled : database.Titled) (name : String) :
    Titled { database with collabs := some (Ascending.erase name rows) } := by
  obtain ⟨_, same, ascending, each⟩ := titled
  cases there.symm.trans same
  exact ⟨_, rfl, Ascending.erase_ascending ascending _,
    fun row member => each row ((Ascending.erase_sublist name rows).subset member)⟩

theorem maintains_collabRows {α : Type} {next : Table CollabRow → DatabaseM α}
    (rest : ∀ database rows, database.collabs = some rows → Titled database →
      (outcome (next rows) database).2.Titled) :
    Maintains Titled (collabRows >>= next) := by
  intro database titled
  obtain ⟨rows, there, -⟩ := id titled
  rw [outcome_bind, outcome_collabRows_of_some there]
  exact rest database rows there titled

theorem collabStore_maintains : collabStore.Maintains Titled := by
  -- Only what is read back decides how a call goes on; the rows are there in any case.
  constructor
  case find? =>
    intro name
    refine maintains_collabRows fun database rows _ titled => ?_
    cases Ascending.find? name rows with
    | none => exact titled
    | some row => exact ((Call.Maintains.ofExcept _).bind fun _ => .pure _) database titled
  case create =>
    intro collab
    refine maintains_collabRows fun database rows there titled => ?_
    split
    · exact titled
    · exact titled.insert there collab
  case update =>
    intro collab
    refine maintains_collabRows fun database rows there titled => ?_
    split
    · exact titled
    · exact titled.insert there collab
  case delete =>
    intro collab
    refine maintains_collabRows fun database rows there titled => ?_
    split
    · exact titled
    · exact titled.erase there collab.name

end Database

open Database

/-- All records were written by commands, performed from an empty table on, whether these succeeded
or failed. Other tables may have changed in between. -/
inductive Authored : Database → Prop where
  | start {database : Database} (noRecords : database.collabs = some []) : Authored database
  | performed {database : Database} (before : Authored database) (command : RecordCommand) :
      Authored (outcome (command.perform collabStore) database).2
  | elsewhere {database after : Database} (before : Authored database)
      (same : after.collabs = database.collabs) : Authored after

theorem Authored.titled {database : Database} (authored : Authored database) :
    database.Titled := by
  induction authored with
  | start noRecords => exact ⟨[], noRecords, Ascending.nil, by simp⟩
  | performed _ command ih => exact collabStore_maintains.perform command _ ih
  | elsewhere _ same ih =>
    obtain ⟨rows, there, titled⟩ := ih
    exact ⟨rows, same.trans there, titled⟩

end SignalExchange
