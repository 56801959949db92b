import SignalExchange.Program.Files
import SignalExchange.Proofs.Database.Rows

/-! The rows of all databases in the files. To make directories and to open a database changes no
row, whether it succeeds or not: a new file has no rows, and the tables that a database lacks are
added without any.
-/

set_option autoImplicit false

namespace SignalExchange

open Call

instance : Nonempty Path := ⟨.root⟩

namespace Database

theorem rowIn_or_nil {α : Type} (table : Option (Table α)) :
    rowIn (table.or (some [])) = rowIn table := by
  cases table <;> rfl

theorem rows_migrate {database migrated : Database} (done : database.migrate = .ok migrated) :
    migrated.rows = database.rows := by
  unfold migrate at done
  split at done
  · cases done
  · split at done
    · -- The tables that are added are empty.
      cases done
      funext place
      simp only [rows, rowIn_or_nil]
    · cases done
      rfl

end Database

theorem DatabaseLocation.rows_opened {location : DatabaseLocation} {logged : Bool}
    {database opened : Database} (done : location.opened logged database = .ok opened) :
    opened.rows = database.rows := by
  unfold DatabaseLocation.opened at done
  split at done
  · obtain ⟨_, -, refused⟩ := Except.bind_eq_ok.1 done
    cases refused
  · split at done
    · cases done
    · split at done
      · split at done
        · obtain ⟨_, -, refused⟩ := Except.bind_eq_ok.1 done
          cases refused
        · cases done
      · exact Database.rows_migrate done

namespace FileTree

def rows (files : FileTree) (place : Path × TableName × String) : Option Row :=
  (files.database? place.1).bind fun database => database.rows place.2

variable {files : FileTree} {path : Path} {database : Database}

theorem database?_setDatabase_self : (files.setDatabase path database).database? path =
    some database := by
  simp [database?, setDatabase]

theorem database?_setDatabase_of_ne {other : Path} (differs : other ≠ path) :
    (files.setDatabase path database).database? other = files.database? other := by
  have apart : path ≠ other := differs.symm
  simp only [database?, setDatabase, List.find?_cons, apart, decide_false, List.find?_filter]
  congr 2
  funext entry
  by_cases same : entry.1 = other
  · simp [same, differs]
  · simp [same]

theorem rows_setDatabase (same : ∀ place, database.rows place = files.rows (path, place)) :
    (files.setDatabase path database).rows = files.rows := by
  funext place
  obtain ⟨other, inside⟩ := place
  by_cases here : other = path
  · subst here
    simp only [rows, database?_setDatabase_self]
    exact same inside
  · simp only [rows, database?_setDatabase_of_ne here]

theorem oneApart_setDatabase {before : Database}
    (there : ∀ place, before.rows place = files.rows (path, place))
    (apart : OneApart before.rows database.rows) :
    OneApart files.rows (files.setDatabase path database).rows := by
  obtain ⟨changed, others⟩ := apart
  refine ⟨(path, changed), fun place differs => ?_⟩
  obtain ⟨other, inside⟩ := place
  by_cases here : other = path
  · subst here
    have elsewhere : inside ≠ changed := fun same => differs (same ▸ rfl)
    simp only [rows, database?_setDatabase_self]
    exact (others inside elsewhere).trans (there inside)
  · simp only [rows, database?_setDatabase_of_ne here]

/-- A path without a database is like one with a blank database. -/
theorem rows_getD_blank (place : TableName × String) :
    ((files.database? path).getD .blank).rows place = files.rows (path, place) := by
  unfold rows
  cases files.database? path with
  | some database => rfl
  | none =>
    obtain ⟨table, key⟩ := place
    cases table <;> rfl

theorem reads_makeWay (endsHere : Bool) (names : List String) (made : Bool) (at_ : Path) :
    Reads rows (makeWay endsHere made at_ names) := by
  induction names generalizing made at_ with
  | nil => exact .pure _
  | cons name rest ih =>
    intro files
    rw [makeWay, outcome_bind, outcome_get]
    dsimp only
    split
    · exact ih made at_.outer files
    · split
      · rfl
      · split
        · rfl
        · split
          · exact ih made (at_.child name) files
          · split
            · rfl
            · -- The new directory holds no database.
              rw [outcome_bind, outcome_set]
              exact ih true (at_.child name) (files.addDirectory (at_.child name))

theorem reads_makeDirectory (working : Path) (text : String) :
    Reads rows (makeDirectory working text) := by
  unfold makeDirectory
  split
  · exact .throw _
  · split
    · exact .throw _
    · exact reads_makeWay _ _ _ _

theorem reads_reach (working : Path) (text : String) (location : DatabaseLocation) :
    Reads rows (reach working text location) := by
  intro files
  rw [reach, outcome_bind, outcome_get]
  dsimp only
  split
  next path _ =>
    split
    · rfl
    · split
      · rfl
      · split
        next missing =>
          split
          · rfl
          · -- A blank database has no rows, and neither has a path without one.
            refine rows_setDatabase fun place => ?_
            have absent : files.database? path = none := by
              simpa [hasDatabase] using missing
            rw [← rows_getD_blank, absent]
            rfl
        next => rfl
  next => rfl

/-- The file of an open database has its rows. -/
def Agrees (files : FileTree) (opened : OpenDatabase) : Prop :=
  ∀ path, opened.file = some path → ∀ place, opened.database.rows place = files.rows (path, place)

theorem openDatabase_agrees {working : Path} {text : String} {opened : OpenDatabase}
    {after : FileTree}
    (done : outcome (openDatabase working text) files = (.ok opened, after)) :
    after.Agrees opened := by
  obtain ⟨location, start, found, done⟩ := outcome_bind_eq_ok.1 done
  split at done
  · obtain ⟨database, middle, fresh, done⟩ := outcome_bind_eq_ok.1 done
    cases done
    exact fun path file => nomatch file
  · obtain ⟨path, reached, reach, done⟩ := outcome_bind_eq_ok.1 done
    obtain ⟨state, _, got, done⟩ := outcome_bind_eq_ok.1 done
    obtain ⟨database, _, ready, done⟩ := outcome_bind_eq_ok.1 done
    obtain ⟨_, _, kept, done⟩ := outcome_bind_eq_ok.1 done
    cases done
    cases kept
    intro other same place
    cases same
    simp only [rows, database?_setDatabase_self]
    rfl

theorem reads_openDatabase (working : Path) (text : String) :
    Reads rows (openDatabase working text) := by
  refine (Reads.ofExcept _).bind fun location => ?_
  split
  · exact (Reads.ofExcept _).map _
  · refine (reads_reach working text location).bind fun path => ?_
    intro files
    rw [outcome_bind, outcome_get]
    dsimp only
    rw [outcome_bind, outcome_ofExcept]
    cases done : location.opened (files.isLogged path) ((files.database? path).getD .blank) with
    | error error => rfl
    | ok database =>
      have same : ∀ place, database.rows place = files.rows (path, place) := fun place => by
        rw [DatabaseLocation.rows_opened done, rows_getD_blank]
      dsimp only
      rw [outcome_bind, outcome_set]
      dsimp only
      split
      · exact @rows_setDatabase (files.addLog path) _ _ same
      · exact rows_setDatabase same

variable {opened : OpenDatabase}

theorem rows_close (agrees : files.Agrees opened) (same : database.rows = opened.database.rows) :
    (files.close { opened with database := database }).rows = files.rows := by
  obtain ⟨before, file⟩ := opened
  cases file with
  | none => rfl
  | some path => exact rows_setDatabase fun place => same ▸ agrees path rfl place

theorem oneApart_close (agrees : files.Agrees opened)
    (apart : OneApart opened.database.rows database.rows) :
    OneApart files.rows (files.close { opened with database := database }).rows := by
  obtain ⟨before, file⟩ := opened
  cases file with
  | none => exact .refl _
  | some path => exact oneApart_setDatabase (agrees path rfl) apart

end FileTree

end SignalExchange
