import SignalExchange.Proofs.Collab.Reliable

/-! The records that can be seen in a database.

A database is ready when its rows are those of records that can be read back, and records fit when
they can be. Then the store gives back what was written to it, and its calls do not fail.
-/

set_option autoImplicit false

namespace SignalExchange

open Call

theorem find?_insert_eq_onto {records : Records} (ascending : Ascending records)
    (collab : Collab) :
    (fun name => Ascending.find? name (Ascending.insert collab.name collab records)) =
      (Change.written collab).onto fun name => Ascending.find? name records :=
  RecordTable.find?_put collab ⟨records, ascending⟩

theorem find?_erase_eq_onto {records : Records} (ascending : Ascending records)
    (collab : Collab) :
    (fun name => Ascending.find? name (Ascending.erase collab.name records)) =
      (Change.deleted collab).onto fun name => Ascending.find? name records :=
  RecordTable.find?_erase collab ⟨records, ascending⟩

namespace Database

def held (database : Database) (name : String) : Option Collab :=
  (outcome (collabStore.find? name) database).1.toOption.join

variable {database : Database} {records : Records}

theorem Keeps.held (keeps : database.Keeps records) :
    database.held = fun name => Ascending.find? name records := by
  funext name
  have search : outcome (collabStore.find? name) database = _ := outcome_findCollab keeps name
  rw [Database.held, search]
  rfl

def view : RecordView Database where
  held := held
  ready database := ∃ records, database.Keeps records
  fits collab := collab.Formed ∧ collab.Plain
  fits_of_held {database name collab} := by
    rintro ⟨records, keeps⟩ found
    rw [keeps.held] at found
    have member := keeps.2.find?_mem found
    exact ⟨keeps.2.formed _ member, keeps.2.plain _ member⟩

theorem Keeps.held_apply (keeps : database.Keeps records) (name : String) :
    view.held database name = Ascending.find? name records := congrFun keeps.held name

theorem Keeps.shows (keeps : database.Keeps records) :
    view.Shows database fun name => Ascending.find? name records := ⟨⟨records, keeps⟩, keeps.held⟩

theorem Keeps.shows_self (keeps : database.Keeps records) :
    view.Shows database (view.held database) := ⟨⟨records, keeps⟩, rfl⟩

theorem Keeps.shows_written (keeps : database.Keeps records) {collab : Collab}
    (fits : view.fits collab) :
    view.Shows (database.withRecords (Ascending.insert collab.name collab records))
      ((Change.written collab).onto (view.held database)) := by
  have after := @Keeps.withRecords database _ (keeps.2.insert fits.1 fits.2)
  rw [show view.held database = _ from keeps.held, ← find?_insert_eq_onto keeps.2.ascending]
  exact after.shows

theorem Keeps.shows_deleted (keeps : database.Keeps records) (collab : Collab) :
    view.Shows (database.withRecords (Ascending.erase collab.name records))
      ((Change.deleted collab).onto (view.held database)) := by
  have after := @Keeps.withRecords database _ (keeps.2.erase collab.name)
  rw [show view.held database = _ from keeps.held, ← find?_erase_eq_onto keeps.2.ascending]
  exact after.shows

theorem collabStore_faithful : collabStore.Faithful view := by
  -- A call fails by its rows alone, or it writes one row, which is read back if the record fits.
  constructor
  case find =>
    rintro name database after result ⟨records, keeps⟩ ran
    cases (outcome_findCollab keeps name).symm.trans ran
    refine ⟨keeps.shows_self, fun found same => ?_⟩
    cases same
    exact (keeps.held_apply name).symm
  case create =>
    rintro collab database after result ⟨records, keeps⟩ fits ran
    have ran := (outcome_createCollab keeps collab).symm.trans ran
    split at ran
    · cases ran
      exact keeps.shows_self
    next free =>
      cases ran
      refine ⟨?_, keeps.shows_written fits⟩
      rw [keeps.held_apply]
      simpa using free
  case update =>
    rintro collab database after result ⟨records, keeps⟩ fits ran
    have ran := (outcome_updateCollab keeps collab).symm.trans ran
    split at ran
    · cases ran
      exact keeps.shows_self
    next taken =>
      cases ran
      refine ⟨?_, keeps.shows_written fits⟩
      rw [keeps.held_apply]
      simpa using taken
  case delete =>
    rintro collab database after result ⟨records, keeps⟩ ran
    have ran := (outcome_deleteCollab keeps collab).symm.trans ran
    split at ran
    · cases ran
      exact keeps.shows_self
    · cases ran
      exact keeps.shows_deleted collab

theorem collabStore_reliable : collabStore.Reliable view where
  toFaithful := collabStore_faithful
  finds {database} := by
    rintro ⟨records, keeps⟩ name
    refine ⟨database, ?_⟩
    rw [keeps.held_apply]
    exact outcome_findCollab keeps name
  creates {collab database} := by
    rintro ⟨records, keeps⟩ fits free
    rw [keeps.held_apply] at free
    have ran := outcome_createCollab keeps collab
    rw [free] at ran
    exact ⟨_, ran⟩
  updates {collab database} := by
    rintro ⟨records, keeps⟩ fits taken
    rw [keeps.held_apply] at taken
    have ran := outcome_updateCollab keeps collab
    rw [if_neg (by simpa using taken)] at ran
    exact ⟨_, ran⟩

end Database

end SignalExchange
