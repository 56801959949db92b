import SignalExchange.Proofs.Program.GroupListing
import SignalExchange.Proofs.Program.Intact

/-! The records that a listing shows.

A record is shown as its exchange, a blank and its name. No exchange has a blank or a line break in
its name, so a record can be told from its line. But a name may hold line breaks, which are printed
as they are, and then the lines of the listing are not the records.
-/

set_option autoImplicit false

namespace SignalExchange

open Call

namespace Listing

/-- The line of a record with this exchange and this name. -/
def titleLine (title : String × String) : String := title.1 ++ " " ++ title.2

theorem toList_titleLine (title : String × String) :
    (titleLine title).toList = title.1.toList ++ ' ' :: title.2.toList := by
  simp [titleLine]

theorem titleLine_inj {first second : String × String} (left : ' ' ∉ first.1.toList)
    (right : ' ' ∉ second.1.toList)
    (same : (titleLine first).toList = (titleLine second).toList) : first = second := by
  obtain ⟨api, name⟩ := first
  obtain ⟨otherApi, otherName⟩ := second
  rw [toList_titleLine, toList_titleLine] at same
  -- The first blank of a line ends its exchange.
  have parts := congrArg (List.splitOn ' ') same
  rw [List.splitOn_append_cons_self_of_not_mem left,
    List.splitOn_append_cons_self_of_not_mem right] at parts
  obtain rfl := String.toList_inj.1 (List.cons.inj parts).1
  obtain rfl := String.toList_inj.1 (List.cons.inj (List.append_cancel_left same)).2
  rfl

theorem lineBreak_notMem_titleLine {title : String × String} (exchange : '\n' ∉ title.1.toList) :
    '\n' ∉ (titleLine title).toList ↔ '\n' ∉ title.2.toList := by
  have blank : '\n' ≠ ' ' := by decide
  simp [toList_titleLine, exchange, blank]

theorem eq_of_lines {first second : List (String × String)}
    (left : ∀ title ∈ first, ' ' ∉ title.1.toList ∧ '\n' ∉ (titleLine title).toList)
    (right : ∀ title ∈ second, ' ' ∉ title.1.toList ∧ '\n' ∉ (titleLine title).toList)
    (same : lines (first.map titleLine) = lines (second.map titleLine)) : first = second := by
  have parts := congrArg (fun text => text.toList.splitOn '\n') same
  rw [splitOn_lines (List.forall_mem_map.2 fun title member => (left title member).2),
    splitOn_lines (List.forall_mem_map.2 fun title member => (right title member).2)] at parts
  have each := List.append_cancel_right parts
  rw [List.map_map, List.map_map] at each
  have length : first.length = second.length := by simpa using congrArg List.length each
  refine List.ext_getElem length fun i inFirst inSecond => ?_
  refine titleLine_inj (left _ (List.getElem_mem inFirst)).1
    (right _ (List.getElem_mem inSecond)).1 ?_
  have here := congrArg (·[i]?) each
  simpa [inFirst, inSecond] using here

end Listing

namespace Registry

theorem name_of_known : ∀ exchange ∈ known,
    ' ' ∉ exchange.name.toList ∧ '\n' ∉ exchange.name.toList := by decide

end Registry

namespace Database

/-- The exchanges and the names of the records, row by row. -/
def titles (database : Database) : List (String × String) :=
  (database.collabs.getD []).map fun row => (row.2.api, row.1)

/-- No record has a line break in its name. -/
def Unbroken (database : Database) : Prop :=
  ∀ title ∈ database.titles, '\n' ∉ title.2.toList

theorem titles_of_keeps {database : Database} {records : Records} (keeps : database.Keeps records) :
    database.titles = records.map fun entry => (entry.2.api, entry.2.name) := by
  rw [titles, keeps.1, Option.getD_some, Records.rows, List.map_map]
  exact List.map_congr_left fun entry member => Prod.ext rfl (keeps.2.named entry member)

theorem Intact.title {database : Database} (intact : database.Intact) :
    ∀ title ∈ database.titles, ' ' ∉ title.1.toList ∧ '\n' ∉ title.1.toList := by
  obtain ⟨⟨records, keeps⟩, all⟩ := intact.records
  rw [titles_of_keeps keeps, List.forall_mem_map]
  rintro ⟨name, collab⟩ member
  have found := (Ascending.find?_eq_some_iff keeps.2.ascending name collab).2 member
  obtain ⟨-, own, declared, -⟩ := all name collab ((keeps.held_apply name).trans found)
  obtain ⟨exchange, known, same, -⟩ := Registry.exists_of_ownFields? declared
  rw [← same]
  exact Registry.name_of_known exchange known

theorem Intact.unbroken_iff {database : Database} (intact : database.Intact) :
    (∀ line ∈ database.titles.map Listing.titleLine, '\n' ∉ line.toList) ↔ database.Unbroken := by
  rw [List.forall_mem_map]
  exact forall₂_congr fun title member =>
    Listing.lineBreak_notMem_titleLine (intact.title title member).2

end Database

namespace Program

open CommandM Database

variable {database : Database}

def listRecords : List String := ["config", "collab", "list"]

theorem parse_listRecords (surfaces : List Surface) : ∃ found,
    (CommandTree.root surfaces).parse listRecords = .ok found ∧
    ∀ environment workspace, respond environment workspace surfaces (.ok found) =
      Ending.printed <$> listCollabs := ⟨_, rfl, fun _ _ => rfl⟩

def recordListing (database : Database) : String :=
  Listing.lines (database.titles.map Listing.titleLine)

theorem runOn_listRecords (intact : database.Intact) (environment : Environment)
    (server : Server) : runOn environment listRecords ⟨database, server⟩ =
      (.printed (recordListing database), ⟨database, server⟩) := by
  obtain ⟨workspace, surfaces, accepts⟩ := takes_of_intact intact
  obtain ⟨found, parsed, responds⟩ := parse_listRecords surfaces
  obtain ⟨⟨records, keeps⟩, -⟩ := intact.records
  have listed : outcome collabStore.listAll database = (.ok (records.map (·.2)), database) := by
    change outcome (ConfigError.onStore Database.listCollabs) database = _
    rw [outcome_onStore, outcome_listCollabs keeps]
    rfl
  have shown : Listing.collabs (records.map (·.2)) = recordListing database := by
    rw [Listing.collabs, recordListing, titles_of_keeps keeps, List.map_map, List.map_map]
    rfl
  have ran := runOn_of_takes (accepts server parsed) environment
  rw [responds, outcome_map, listCollabs, bind_pure_comp, outcome_map, config, outcome_onDatabase,
    listed] at ran
  rw [ran, ← shown]
  rfl

theorem told_of_unbroken (intact : database.Intact) (whole : database.Unbroken) :
    ∀ title ∈ database.titles, ' ' ∉ title.1.toList ∧ '\n' ∉ (Listing.titleLine title).toList :=
  fun title member => ⟨(intact.title title member).1,
    List.forall_mem_map.1 (intact.unbroken_iff.2 whole) title member⟩

/-- On every database that runs lead to, a listing succeeds and prints a line for each record. These
are all its lines exactly when no name holds a line break, and such databases that are listed alike
hold the same exchanges and names. -/
theorem records_listed (reached : Reached database) (environment : Environment) (server : Server) :
    runOn environment listRecords ⟨database, server⟩ =
      (.printed (recordListing database), ⟨database, server⟩) ∧
    ((recordListing database).toList.count '\n' = database.titles.length ↔ database.Unbroken) ∧
    (database.Unbroken →
      (recordListing database).toList.splitOn '\n' =
        (database.titles.map fun title => title.1.toList ++ ' ' :: title.2.toList) ++ [[]] ∧
      ∀ {other}, Reached other → other.Unbroken → ∀ later otherServer,
        (runOn environment listRecords ⟨database, server⟩).1 =
          (runOn later listRecords ⟨other, otherServer⟩).1 →
        database.titles = other.titles) := by
  have intact := reached.intact
  refine ⟨runOn_listRecords intact environment server, ?_, fun whole => ⟨?_, ?_⟩⟩
  · rw [recordListing, ← intact.unbroken_iff, ← Listing.count_lines_iff, List.length_map]
  · rw [recordListing, Listing.splitOn_lines (intact.unbroken_iff.2 whole), List.map_map]
    exact congrArg (· ++ [[]]) (List.map_congr_left fun title _ => Listing.toList_titleLine title)
  · intro other reachedOther wholeOther later otherServer same
    have intactOther := reachedOther.intact
    rw [runOn_listRecords intact, runOn_listRecords intactOther] at same
    exact Listing.eq_of_lines (told_of_unbroken intact whole)
      (told_of_unbroken intactOther wholeOther) (Ending.printed.inj same)

def createRecord (name : String) : List String :=
  ["config", "collab", "edit", "local_file", name, "-C", "--filename", "f"]

/-- The database after runs that create records with these names. -/
def created (names : List String) : Database :=
  names.foldl (fun database name => afterRun database (createRecord name)) Database.empty

theorem reached_created (names : List String) : Reached (created names) := by
  induction names using List.reverseRecOn with
  | nil => exact .start
  | append_singleton names name ih =>
    rw [created, List.foldl_concat]
    exact ih.afterRun (createRecord name)

/-- Blanks in names are told from the one that ends the exchange. -/
theorem two_records_listed : ∃ database, Reached database ∧ database.Unbroken ∧
    runOn freshHome listRecords ⟨database, .unreachable⟩ =
      (.printed (recordListing database), ⟨database, .unreachable⟩) ∧
    (recordListing database).toList.splitOn '\n' =
      ["local_file a".toList, "local_file b c".toList, []] ∧
    ∀ other, Reached other → other.Unbroken →
      (runOn freshHome listRecords ⟨database, .unreachable⟩).1 =
        (runOn freshHome listRecords ⟨other, .unreachable⟩).1 →
      [("local_file", "a"), ("local_file", "b c")] = other.titles := by
  have reached := reached_created ["b c", "a"]
  have titles : (created ["b c", "a"]).titles = [("local_file", "a"), ("local_file", "b c")] := by
    decide +kernel
  have whole : (created ["b c", "a"]).Unbroken := by
    rw [Unbroken, titles]
    decide
  obtain ⟨ran, -, unbroken⟩ := records_listed reached freshHome .unreachable
  obtain ⟨split, told⟩ := unbroken whole
  rw [titles] at split told
  exact ⟨_, reached, whole, ran, split,
    fun other reachedOther wholeOther => told reachedOther wholeOther _ _⟩

/-- One record with a line break in its name is listed as two others are. -/
theorem one_record_listed_as_two :
    Reached (created ["a\nlocal_file b"]) ∧ Reached (created ["a", "b"]) ∧
    (created ["a\nlocal_file b"]).titles = [("local_file", "a\nlocal_file b")] ∧
    (created ["a", "b"]).titles = [("local_file", "a"), ("local_file", "b")] ∧
    (runOn freshHome listRecords ⟨created ["a\nlocal_file b"], .unreachable⟩).1 =
      .printed "local_file a\nlocal_file b\n" ∧
    (runOn freshHome listRecords ⟨created ["a", "b"], .unreachable⟩).1 =
      .printed "local_file a\nlocal_file b\n" := by
  have first : (created ["a\nlocal_file b"]).titles = [("local_file", "a\nlocal_file b")] := by
    decide +kernel
  have second : (created ["a", "b"]).titles = [("local_file", "a"), ("local_file", "b")] := by
    decide +kernel
  have reachedFirst := reached_created ["a\nlocal_file b"]
  have reachedSecond := reached_created ["a", "b"]
  refine ⟨reachedFirst, reachedSecond, first, second, ?_, ?_⟩
  · rw [runOn_listRecords reachedFirst.intact, recordListing, first]
    rfl
  · rw [runOn_listRecords reachedSecond.intact, recordListing, second]
    rfl

end Program

end SignalExchange
