import SignalExchange.Proofs.Program.Reached

/-! What every run leaves of its database.

The modules stay in order and the records conform to the schemas of known exchanges. This is enough
for the next run to load the extensions, to have a command line and to read all records.
-/

set_option autoImplicit false

namespace SignalExchange

open Call

namespace Database

theorem collabStore_maintains_elsewhere {kind : Database → Prop}
    (elsewhere : ∀ database rows, kind database → kind { database with collabs := rows }) :
    collabStore.Maintains kind := by
  have read : Maintains kind collabRows := by
    intro database holds
    rw [show collabRows = (do rowsOf collabTable (← get).collabs) from rfl,
      outcome_tableRows collabTable Database.collabs]
    exact holds
  have set (rows : Table CollabRow) : Maintains kind (setCollabRows rows) :=
    fun database => elsewhere database (some rows)
  -- Each call reads the table, and then fails or writes it whole.
  constructor
  case find? =>
    intro name
    refine read.bind fun rows => ?_
    split
    · exact .pure _
    · exact (Maintains.ofExcept _).bind fun _ => .pure _
  case create =>
    intro collab
    refine read.bind fun rows => ?_
    split
    · exact (Maintains.throw _).bind fun _ => set _
    · exact set _
  case update =>
    intro collab
    refine read.bind fun rows => ?_
    split
    · exact (Maintains.throw _).bind fun _ => set _
    · exact set _
  case delete =>
    intro name
    refine read.bind fun rows => ?_
    split
    · exact .pure _
    · exact (set _).bind fun _ => .pure _

/-- The modules are listed in order, and the records conform to the schemas of known exchanges. -/
structure Intact (database : Database) : Prop where
  modules : ∃ rows, database.extensions = some rows ∧ Ascending rows
  records : database.Conforming Registry.ownFields?

theorem Intact.of_records {database after : Database} (intact : database.Intact)
    (same : after.extensions = database.extensions)
    (records : after.Conforming Registry.ownFields?) : after.Intact :=
  ⟨same ▸ intact.modules, records⟩

theorem Intact.of_writes {given : Option String} {database after : Database}
    (intact : database.Intact) (writes : Program.Writes given database after) : after.Intact := by
  have store : collabStore.Maintains fun after => after.extensions = database.extensions :=
    collabStore_maintains_elsewhere fun _ _ same => same
  obtain ⟨rows, kept, ascending⟩ := intact.modules
  cases writes with
  | applied known edit =>
    exact intact.of_records (store.related.apply maintains_congruence _ edit database rfl)
      (Registry.maintains_apply known edit database intact.records)
  | imported name fields =>
    exact intact.of_records (store.related.importAs maintains_congruence name _ fields database rfl)
      (Registry.maintains_importAs List.mem_cons_self name fields database intact.records)
  | removed name =>
    exact intact.of_records (store.related.remove maintains_congruence name database rfl)
      (conforming_remove (fun _ _ => Registry.accepted_of_known) name database intact.records)
  | added there module =>
    cases there.symm.trans kept
    exact ⟨⟨_, rfl, Ascending.insert_ascending ascending _ _⟩, intact.records.elsewhere rfl⟩
  | dropped there module =>
    cases there.symm.trans kept
    exact ⟨⟨_, rfl, Ascending.erase_ascending ascending _⟩, intact.records.elsewhere rfl⟩
  | credentials | token => exact ⟨intact.modules, intact.records.elsewhere rfl⟩

end Database

namespace Registry

/-- Every known exchange can be on the command line. -/
theorem offerable_of_known : ∀ exchange ∈ known, exchange.Offerable := by
  have each : ∀ exchange ∈ known, ∃ fields, exchange.describe = .ok fields ∧
      ∀ field ∈ fields, ¬Surface.clashes Surface.reserved field ∧
        ¬Surface.clashes CommandTree.globalNames field := by
    simp only [known, Standard.exchanges, List.cons_append, List.nil_append, List.forall_mem_cons]
    exact ⟨⟨_, rfl, by decide⟩, ⟨_, rfl, by decide⟩, ⟨_, rfl, by decide⟩, ⟨_, rfl, by decide⟩,
      ⟨_, rfl, by decide⟩, List.forall_mem_nil _⟩
  intro exchange member
  obtain ⟨fields, describes, free⟩ := each exchange member
  refine .inr fun other describesOther => ?_
  cases describes.symm.trans describesOther
  exact free

end Registry

namespace Program

open Database

variable {database : Database}

theorem Reached.intact (reached : Reached database) : database.Intact :=
  reached.of_writes ⟨⟨[], rfl, .nil⟩, conforming_of_noRecords rfl⟩ fun _ _ _ => Intact.of_writes

theorem takes_of_intact (intact : database.Intact) :
    ∃ workspace surfaces, ∀ server {words found},
      (CommandTree.root surfaces).parse words = .ok found →
      Takes words ⟨database, server⟩ workspace surfaces found := by
  obtain ⟨rows, there, ascending⟩ := intact.modules
  obtain ⟨workspace, loaded, -⟩ := load_cases there ascending .standard
  obtain ⟨-, added, standard, built⟩ := load_standard loaded
  have offerable : ∀ exchange ∈ Registry.standard.exchanges ++ added, exchange.Offerable := by
    rw [← ExchangeMapping.exchanges_of_build built]
    exact fun exchange member =>
      Registry.offerable_of_known exchange (Registry.known_of_build standard built exchange member)
  obtain ⟨command, done⟩ := (Workspace.exists_commandLine_iff built).2 offerable
  obtain ⟨surfaces, made, free⟩ := Except.bind_eq_ok.1 done
  obtain ⟨-, rfl⟩ := CommandTree.withSurfaces_eq_ok.1 free
  exact ⟨workspace, surfaces, fun _ _ _ parsed =>
    ⟨⟨_, loaded⟩, ⟨added, standard, built⟩, made, free, parsed⟩⟩

end Program

end SignalExchange
