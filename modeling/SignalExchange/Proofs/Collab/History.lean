import SignalExchange.Collab.Rules
import SignalExchange.Proofs.Collab.Assignment
import SignalExchange.Proofs.Database.CollabTable
import SignalExchange.Proofs.Text.ByteOrder

/-! Histories of the store of records.

A command on the store fails and leaves all as it was, writes one record under its own name, or
deletes one. So the store is always the map of the records that stand after the changes so far.
-/

set_option autoImplicit false

namespace SignalExchange

open Call Database

/-- A command of the rules for records, under a schema that starts with the common fields. -/
inductive RecordCommand where
  | apply (api : String) (own : List Field) (edit : ResolvedEdit)
  | importAs (name api : String) (own : List Field) (fields : EditSet)
  | remove (name : String)

inductive Change where
  | written (collab : Collab)
  | deleted (collab : Collab)

namespace Change

def collab : Change → Collab
  | written collab => collab
  | deleted collab => collab

/-- The record under a name after a change, when there was `held` before. -/
def after (name : String) (held : Option Collab) : Change → Option Collab
  | written collab => if collab.name = name then some collab else held
  | deleted collab => if collab.name = name then none else held

/-- The record last written under a name and not deleted since. -/
def standing (name : String) (changes : List Change) : Option Collab :=
  changes.foldl (Change.after name) none

theorem standing_append (name : String) (changes : List Change) (change : Change) :
    standing name (changes ++ [change]) = change.after name (standing name changes) := by
  simp [standing]

end Change

namespace RecordCommand

variable {m : Type → Type} [Monad m]

def perform (store : CollabStore m) : RecordCommand → ExceptT ConfigError m Change
  | apply api own edit => do
    return .written (← store.apply (Schema.ofFields api own) edit).collab
  | importAs name api own fields => do
    return .written (← store.importAs name (Schema.ofFields api own) fields)
  | remove name => do
    return .deleted (← store.remove name)

end RecordCommand

/-! What a command can do -/

section

variable {database : Database} {records : Records}

/-- The call failed and changed nothing, or it put its record under the name of the record. -/
def Writes {β : Type} (database : Database) (records : Records) (record : β → Collab)
    (result : Except ConfigError β × Database) : Prop :=
  (∃ error, result = (.error error, database)) ∨
    ∃ value, (record value).Formed ∧ result = (.ok value,
      database.withRecords (Ascending.insert (record value).name (record value) records))

theorem Writes.bind_pure {β γ : Type} {action : ExceptT ConfigError (StateM Database) β}
    {first : β → Collab} (writes : Writes database records first (outcome action database))
    {second : γ → Collab} {f : β → γ} (same : ∀ value, second (f value) = first value) :
    Writes database records second
      (outcome (action >>= fun value => pure (f value)) database) := by
  rw [outcome_bind]
  rcases writes with ⟨error, failed⟩ | ⟨value, formed, done⟩
  · rw [failed]
    exact .inl ⟨error, rfl⟩
  · rw [done, ← same value]
    exact .inr ⟨f value, (same value).symm ▸ formed, rfl⟩

theorem writes_call {β : Type} {call : DatabaseM Unit} {refused : Prop} [Decidable refused]
    {error : StoreError} {record : β → Collab} (value : β) (formed : (record value).Formed)
    (ran : outcome call database =
      if refused then (.error error, database)
      else (.ok (), database.withRecords
        (Ascending.insert (record value).name (record value) records))) :
    Writes database records record
      (outcome (ConfigError.onStore call >>= fun _ => pure value) database) := by
  rw [outcome_bind, outcome_onStore, ran]
  by_cases refused
  next no =>
    rw [if_pos no]
    exact .inl ⟨.storage error, rfl⟩
  next yes =>
    rw [if_neg yes]
    exact .inr ⟨value, formed, rfl⟩

theorem writes_createNew (keeps : database.Keeps records) (api : String) (own : List Field)
    (edit : EditSet) :
    Writes database records Outcome.collab
      (outcome (collabStore.createNew (Schema.ofFields api own) edit) database) := by
  rw [CollabStore.createNew, outcome_bind, outcome_ofExcept]
  cases constructed : Collab.construct (Schema.ofFields api own) edit with
  | error error => exact .inl ⟨error, rfl⟩
  | ok collab =>
    exact writes_call (Outcome.created collab) (Collab.construct_formed constructed)
      (outcome_createCollab keeps collab)

theorem writes_updateExisting (keeps : database.Keeps records) (api : String) (own : List Field)
    {existing : Collab} (formed : existing.Formed) (edit : EditSet) :
    Writes database records Outcome.collab
      (outcome (collabStore.updateExisting (Schema.ofFields api own) existing edit) database) := by
  rw [CollabStore.updateExisting]
  split
  next => exact .inl ⟨.crossApi existing.api api, rfl⟩
  next =>
    rw [outcome_bind, outcome_ofExcept]
    cases assigned : existing.assignAll (Schema.ofFields api own) edit with
    | error error => exact .inl ⟨error, rfl⟩
    | ok collab =>
      exact writes_call (Outcome.updated collab)
        ((Collab.assignAll_kept assigned).formed formed) (outcome_updateCollab keeps collab)

theorem outcome_find (keeps : database.Keeps records) (name : String) :
    outcome (ConfigError.onStore (collabStore.find? name)) database =
      (.ok (Ascending.find? name records), database) := by
  simp [collabStore, outcome_findCollab keeps]

theorem writes_apply (keeps : database.Keeps records) (api : String) (own : List Field)
    (edit : ResolvedEdit) :
    Writes database records Outcome.collab
      (outcome (collabStore.apply (Schema.ofFields api own) edit) database) := by
  rw [CollabStore.apply, outcome_bind, outcome_find keeps]
  cases found : Ascending.find? edit.identifier records with
  | none =>
    cases create : edit.create with
    | true => exact writes_createNew keeps api own edit.edit
    | false => exact .inl ⟨.editTargetMissing edit.identifier, rfl⟩
  | some existing =>
    cases create : edit.create with
    | true => exact .inl ⟨.duplicateCollab edit.identifier, rfl⟩
    | false =>
      have formed := keeps.2.formed _ (keeps.2.find?_mem found)
      exact writes_updateExisting keeps api own formed edit.edit

theorem writes_importAs (keeps : database.Keeps records) (name api : String) (own : List Field)
    (fields : EditSet) :
    Writes database records id
      (outcome (collabStore.importAs name (Schema.ofFields api own) fields) database) := by
  rw [CollabStore.importAs, outcome_bind, outcome_find keeps]
  cases found : Ascending.find? name records with
  | some existing => exact .inl ⟨.duplicateCollab name, rfl⟩
  | none => exact (writes_createNew keeps api own _).bind_pure fun _ => rfl

theorem deletes_remove (keeps : database.Keeps records) (name : String) :
    (∃ error, outcome (collabStore.remove name) database = (.error error, database)) ∨
      ∃ collab, Ascending.find? name records = some collab ∧
        outcome (collabStore.remove name) database =
          (.ok collab, database.withRecords (Ascending.erase collab.name records)) := by
  rw [CollabStore.remove, outcome_bind, outcome_find keeps]
  cases found : Ascending.find? name records with
  | none => exact .inl ⟨.collabNotFound name, rfl⟩
  | some collab =>
    -- The record was found a moment ago, so there is one to delete.
    have deleted := outcome_deleteCollab keeps collab
    rw [keeps.2.find?_name found, found] at deleted
    refine .inr ⟨collab, rfl, ?_⟩
    simp only [outcome_bind, outcome_onStore, collabStore]
    rw [deleted, keeps.2.find?_name found]
    rfl

theorem perform_cases (keeps : database.Keeps records) (command : RecordCommand) :
    (∃ error, outcome (command.perform collabStore) database = (.error error, database)) ∨
    (∃ collab, collab.Formed ∧ outcome (command.perform collabStore) database =
      (.ok (.written collab),
        database.withRecords (Ascending.insert collab.name collab records))) ∨
    ∃ name collab, command = .remove name ∧ Ascending.find? name records = some collab ∧
      outcome (command.perform collabStore) database =
        (.ok (.deleted collab), database.withRecords (Ascending.erase collab.name records)) := by
  cases command with
  | apply api own edit =>
    rw [RecordCommand.perform, outcome_bind]
    rcases writes_apply keeps api own edit with ⟨error, failed⟩ | ⟨done, formed, ran⟩
    · rw [failed]
      exact .inl ⟨error, rfl⟩
    · rw [ran]
      exact .inr (.inl ⟨done.collab, formed, rfl⟩)
  | importAs name api own fields =>
    rw [RecordCommand.perform, outcome_bind]
    rcases writes_importAs keeps name api own fields with ⟨error, failed⟩ | ⟨collab, formed, ran⟩
    · rw [failed]
      exact .inl ⟨error, rfl⟩
    · rw [ran]
      exact .inr (.inl ⟨collab, formed, rfl⟩)
  | remove name =>
    rw [RecordCommand.perform, outcome_bind]
    rcases deletes_remove keeps name with ⟨error, failed⟩ | ⟨collab, found, done⟩
    · rw [failed]
      exact .inl ⟨error, rfl⟩
    · rw [done]
      exact .inr (.inr ⟨name, collab, rfl, found, rfl⟩)

end

/-! Histories -/

/-- Commands were performed one after the other on a database without records, and those that
succeeded made these changes. Every record that was written is plain. -/
inductive Reached : List Change → Database → Prop where
  | start {database : Database} (noRecords : database.collabs = some []) : Reached [] database
  | failed {changes : List Change} {database after : Database} {command : RecordCommand}
      {error : ConfigError} (before : Reached changes database)
      (ran : outcome (command.perform collabStore) database = (.error error, after)) :
      Reached changes after
  | changed {changes : List Change} {database after : Database} {command : RecordCommand}
      {change : Change} (before : Reached changes database)
      (ran : outcome (command.perform collabStore) database = (.ok change, after))
      (plain : ∀ collab, change = .written collab → collab.Plain) :
      Reached (changes ++ [change]) after

-- The invariant of a history: it names the records, of which the database has only the texts.
structure Keeping (changes : List Change) (database : Database) (records : Records) : Prop where
  keeps : database.Keeps records
  stands : ∀ name, Ascending.find? name records = Change.standing name changes

theorem Keeping.written {changes : List Change} {database : Database} {records : Records}
    (keeping : Keeping changes database records) {collab : Collab} (formed : collab.Formed)
    (plain : collab.Plain) :
    Keeping (changes ++ [.written collab])
      (database.withRecords (Ascending.insert collab.name collab records))
      (Ascending.insert collab.name collab records) := by
  refine ⟨Keeps.withRecords (keeping.keeps.2.insert formed plain), fun name => ?_⟩
  rw [Change.standing_append, Change.after, ← keeping.stands]
  split
  next same => rw [← same, Ascending.find?_insert_self]
  next differs => exact Ascending.find?_insert_of_ne (Ne.symm differs) collab records

theorem Keeping.deleted {changes : List Change} {database : Database} {records : Records}
    (keeping : Keeping changes database records) (collab : Collab) :
    Keeping (changes ++ [.deleted collab])
      (database.withRecords (Ascending.erase collab.name records))
      (Ascending.erase collab.name records) := by
  refine ⟨Keeps.withRecords (keeping.keeps.2.erase collab.name), fun name => ?_⟩
  rw [Change.standing_append, Change.after, ← keeping.stands]
  split
  next same => rw [← same, Ascending.find?_erase_self keeping.keeps.2.ascending]
  next differs => exact Ascending.find?_erase_of_ne (Ne.symm differs) records

theorem Reached.keeping {changes : List Change} {database : Database}
    (reached : Reached changes database) : ∃ records, Keeping changes database records := by
  -- By the commands of the history; what each of them can do decides which case it is.
  induction reached with
  | start noRecords => exact ⟨[], ⟨noRecords, Records.sound_nil⟩, fun _ => rfl⟩
  | @failed changes database after command error before ran ih =>
    obtain ⟨records, keeping⟩ := ih
    rcases perform_cases keeping.keeps command with
      ⟨_, same⟩ | ⟨_, _, same⟩ | ⟨_, _, _, _, same⟩
    · cases ran.symm.trans same
      exact ⟨records, keeping⟩
    · cases ran.symm.trans same
    · cases ran.symm.trans same
  | @changed changes database after command change before ran plain ih =>
    obtain ⟨records, keeping⟩ := ih
    rcases perform_cases keeping.keeps command with
      ⟨error, same⟩ | ⟨collab, formed, same⟩ | ⟨name, collab, -, -, same⟩
    · cases ran.symm.trans same
    · cases ran.symm.trans same
      exact ⟨_, keeping.written formed (plain collab rfl)⟩
    · cases ran.symm.trans same
      exact ⟨_, keeping.deleted collab⟩

/-! The store as a map -/

def Database.collabRow? (database : Database) (name : String) : Option CollabRow :=
  database.collabs.bind (Ascending.find? name)

theorem collabRow?_withRecords (database : Database) (records : Records) (name : String) :
    (database.withRecords records).collabRow? name =
      (Ascending.find? name records).map Collab.row :=
  Ascending.find?_map Collab.row name records

theorem collabRow?_keeps {database : Database} {records : Records}
    (keeps : database.Keeps records) (name : String) :
    database.collabRow? name = (Ascending.find? name records).map Collab.row := by
  rw [Database.collabRow?, keeps.1]
  exact Ascending.find?_map Collab.row name records

theorem list_of_keeping {changes : List Change} {database : Database} {records : Records}
    (keeping : Keeping changes database records) :
    (records.map (·.2)).Pairwise (fun a b => textBytes a.name < textBytes b.name) ∧
      ∀ collab, collab ∈ records.map (·.2) ↔
        Change.standing collab.name changes = some collab := by
  have sound := keeping.keeps.2
  constructor
  · rw [List.pairwise_map]
    refine sound.ascending.imp_of_mem fun first second below => ?_
    rw [textBytes_lt_iff, ← sound.named _ first, ← sound.named _ second]
    exact below
  · intro collab
    rw [← keeping.stands, Ascending.find?_eq_some_iff sound.ascending]
    constructor
    · intro member
      obtain ⟨entry, inRecords, rfl⟩ := List.mem_map.1 member
      rw [← sound.named entry inRecords]
      exact inRecords
    · intro inRecords
      exact List.mem_map.2 ⟨_, inRecords, rfl⟩

theorem columns_of_keeps {database : Database} {records : Records}
    (keeps : database.Keeps records) : ∃ rows, database.collabs = some rows ∧
      ∀ row ∈ rows, ∃ collab, Collab.read row.2.data = .ok collab ∧ row.1 = collab.name ∧
        row.2.api = collab.api ∧ row.2.enabled = collab.enabled := by
  obtain ⟨rows, sound⟩ := keeps
  refine ⟨_, rows, fun row member => ?_⟩
  obtain ⟨entry, inRecords, rfl⟩ := List.mem_map.1 member
  exact ⟨entry.2, Collab.read_text (sound.formed entry inRecords) (sound.plain entry inRecords),
    sound.named entry inRecords, rfl, rfl⟩

theorem changes_own_row {database : Database} {records : Records}
    (keeps : database.Keeps records) {command : RecordCommand} {change : Change}
    {after : Database}
    (ran : outcome (command.perform collabStore) database = (.ok change, after)) :
    { after with collabs := database.collabs } = database ∧
      ∀ name ≠ change.collab.name, after.collabRow? name = database.collabRow? name := by
  rcases perform_cases keeps command with
    ⟨_, same⟩ | ⟨collab, _, same⟩ | ⟨_, collab, _, _, same⟩
  · cases ran.symm.trans same
  · cases ran.symm.trans same
    refine ⟨rfl, fun name differs => ?_⟩
    have other : name ≠ collab.name := differs
    rw [collabRow?_withRecords, collabRow?_keeps keeps, Ascending.find?_insert_of_ne other]
  · cases ran.symm.trans same
    refine ⟨rfl, fun name differs => ?_⟩
    have other : name ≠ collab.name := differs
    rw [collabRow?_withRecords, collabRow?_keeps keeps, Ascending.find?_erase_of_ne other]

theorem failure_keeps {database : Database} {records : Records}
    (keeps : database.Keeps records) {command : RecordCommand} {error : ConfigError}
    {after : Database}
    (ran : outcome (command.perform collabStore) database = (.error error, after)) :
    after = database := by
  rcases perform_cases keeps command with ⟨_, same⟩ | ⟨_, _, same⟩ | ⟨_, _, _, _, same⟩
  · cases ran.symm.trans same
    rfl
  · cases ran.symm.trans same
  · cases ran.symm.trans same

theorem remove_standing {changes : List Change} {database after : Database} {records : Records}
    (keeping : Keeping changes database records) {name : String} {change : Change}
    (ran : outcome ((RecordCommand.remove name).perform collabStore) database =
      (.ok change, after)) :
    ∃ collab, change = .deleted collab ∧ Change.standing name changes = some collab := by
  rw [RecordCommand.perform, outcome_bind] at ran
  rcases deletes_remove keeping.keeps name with ⟨_, same⟩ | ⟨collab, found, same⟩
  · rw [same] at ran
    cases ran
  · rw [same] at ran
    cases ran
    exact ⟨collab, rfl, keeping.stands name ▸ found⟩

/-- Whatever was performed on a store without records, it is the map from names to the records
that stand, and any further command keeps to the row of the record it returns. -/
theorem store_is_map {changes : List Change} {database : Database}
    (reached : Reached changes database) :
    (∀ name, outcome (collabStore.find? name) database =
      (.ok (Change.standing name changes), database)) ∧
    (∃ collabs, outcome collabStore.list database = (.ok collabs, database) ∧
      collabs.Pairwise (fun a b => textBytes a.name < textBytes b.name) ∧
      ∀ collab, collab ∈ collabs ↔ Change.standing collab.name changes = some collab) ∧
    (∃ rows, database.collabs = some rows ∧
      ∀ row ∈ rows, ∃ collab, Collab.read row.2.data = .ok collab ∧ row.1 = collab.name ∧
        row.2.api = collab.api ∧ row.2.enabled = collab.enabled) ∧
    (∀ (command : RecordCommand) error after,
      outcome (command.perform collabStore) database = (.error error, after) →
        after = database) ∧
    (∀ (command : RecordCommand) (change : Change) after,
      outcome (command.perform collabStore) database = (.ok change, after) →
        { after with collabs := database.collabs } = database ∧
        ∀ name ≠ change.collab.name, after.collabRow? name = database.collabRow? name) ∧
    ∀ name (change : Change) after,
      outcome ((RecordCommand.remove name).perform collabStore) database =
        (.ok change, after) →
      ∃ collab, change = .deleted collab ∧ Change.standing name changes = some collab := by
  obtain ⟨records, keeping⟩ := reached.keeping
  refine ⟨fun name => ?_, ⟨_, outcome_listCollabs keeping.keeps, list_of_keeping keeping⟩,
    columns_of_keeps keeping.keeps, fun _ _ _ ran => failure_keeps keeping.keeps ran,
    fun _ _ _ ran => changes_own_row keeping.keeps ran,
    fun _ _ _ ran => remove_standing keeping ran⟩
  rw [← keeping.stands]
  exact outcome_findCollab keeping.keeps name

/-! Two records, one of which is deleted again -/

def rankedFields : List Field := [{ name := "priority", type := .integer }]

def rankedAt (name : String) (priority : Int) : Collab :=
  ⟨name, "demo", true, .ofList [("priority", .integer priority)]⟩

theorem rankedAt_formed (name : String) (priority : Int) : (rankedAt name priority).Formed := by
  simp [Collab.Formed, rankedAt, AscendingMap.ofList, Ascending.ofList, Ascending.insert,
    commonNames, commonFields]

theorem rankedAt_plain (name : String) {priority : Int} (fits : Integer.InRange priority) :
    (rankedAt name priority).Plain := by
  refine ⟨⟨⟨fits.1, fits.2.trans (by decide)⟩, trivial⟩, ?_⟩
  change Json.entriesDepth [("priority", .integer priority)] + 1 < 128
  simp [Json.entriesDepth, Json.depth]

def editRanked (create : Bool) (entries : List (String × Json)) : RecordCommand :=
  .apply "demo" rankedFields ⟨"a", .ofList entries, create⟩

def importRanked : RecordCommand :=
  .importAs "b" "demo" rankedFields ⟨[("priority", .integer 3)]⟩

/-- One record is created and edited, and creating it again fails. Another one is imported and
deleted. -/
theorem ranked_stands : ∃ database,
    Reached [.written (rankedAt "a" 1), .written (rankedAt "a" 2), .written (rankedAt "b" 3),
      .deleted (rankedAt "b" 3)] database ∧
    outcome (collabStore.find? "a") database = (.ok (some (rankedAt "a" 2)), database) ∧
    outcome (collabStore.find? "b") database = (.ok none, database) := by
  have plain {name : String} {priority : Int} (fits : Integer.InRange priority) :
      ∀ collab, Change.written (rankedAt name priority) = .written collab → collab.Plain :=
    fun _ same => Change.written.inj same ▸ rankedAt_plain name fits
  have keeps {records : Records} (sound : records.Sound) :
      (Database.empty.withRecords records).Keeps records := .withRecords sound
  have one : Records.Sound [("a", rankedAt "a" 1)] :=
    Records.sound_nil.insert (rankedAt_formed _ _) (rankedAt_plain _ (by decide))
  have two : Records.Sound [("a", rankedAt "a" 2)] :=
    Records.sound_nil.insert (rankedAt_formed _ _) (rankedAt_plain _ (by decide))
  have three : Records.Sound [("a", rankedAt "a" 2), ("b", rankedAt "b" 3)] :=
    two.insert (rankedAt_formed "b" 3) (rankedAt_plain _ (by decide))
  have created : outcome ((editRanked true [("name", .string "a"),
      ("priority", .integer 1)]).perform collabStore) Database.empty =
        (.ok (.written (rankedAt "a" 1)), Database.empty.withRecords [("a", rankedAt "a" 1)]) := rfl
  have again : outcome ((editRanked true [("name", .string "a")]).perform collabStore)
      (Database.empty.withRecords [("a", rankedAt "a" 1)]) =
        (.error (.duplicateCollab "a"), Database.empty.withRecords [("a", rankedAt "a" 1)]) := by
    rw [editRanked, RecordCommand.perform, outcome_bind, CollabStore.apply, outcome_bind,
      outcome_find (keeps one)]
    rfl
  have edited : outcome ((editRanked false [("priority", .integer 2)]).perform collabStore)
      (Database.empty.withRecords [("a", rankedAt "a" 1)]) =
        (.ok (.written (rankedAt "a" 2)), Database.empty.withRecords [("a", rankedAt "a" 2)]) := by
    rw [editRanked, RecordCommand.perform, outcome_bind, CollabStore.apply, outcome_bind,
      outcome_find (keeps one)]
    rfl
  have imported : outcome (importRanked.perform collabStore)
      (Database.empty.withRecords [("a", rankedAt "a" 2)]) =
        (.ok (.written (rankedAt "b" 3)),
          Database.empty.withRecords [("a", rankedAt "a" 2), ("b", rankedAt "b" 3)]) := by
    rw [importRanked, RecordCommand.perform, outcome_bind, CollabStore.importAs, outcome_bind,
      outcome_find (keeps two)]
    rfl
  have deleted : outcome ((RecordCommand.remove "b").perform collabStore)
      (Database.empty.withRecords [("a", rankedAt "a" 2), ("b", rankedAt "b" 3)]) =
        (.ok (.deleted (rankedAt "b" 3)), Database.empty.withRecords [("a", rankedAt "a" 2)]) := by
    rw [RecordCommand.perform, outcome_bind, CollabStore.remove, outcome_bind,
      outcome_find (keeps three)]
    rfl
  have first : Reached [.written (rankedAt "a" 1)] _ :=
    .changed (.start rfl) created (plain (by decide))
  have second : Reached [.written (rankedAt "a" 1), .written (rankedAt "a" 2)] _ :=
    (first.failed again).changed edited (plain (by decide))
  have third : Reached [.written (rankedAt "a" 1), .written (rankedAt "a" 2),
      .written (rankedAt "b" 3)] _ := second.changed imported (plain (by decide))
  have last := third.changed deleted nofun
  obtain ⟨finds, -⟩ := store_is_map last
  exact ⟨_, last, finds "a", finds "b"⟩

end SignalExchange
