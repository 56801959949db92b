import SignalExchange.Program.CommandTree
import SignalExchange.Proofs.Edit.Surface
import SignalExchange.Proofs.Workspace.Extensions

/-! Whether the command line of a workspace can be built.

Every command needs the whole command line. It is there when each exchange that can be edited keeps
away from the names that edit commands and the program have for themselves. What is checked when a
module is added does not look at these names.
-/

set_option autoImplicit false

namespace SignalExchange

open Call Database

namespace Exchange

/-- No flag of the exchange has a name that is taken. Samples have no flags. -/
def Offerable (exchange : Exchange) : Prop :=
  exchange.isSample = true ∨ ∀ fields, exchange.describe = .ok fields → ∀ field ∈ fields,
    ¬Surface.clashes Surface.reserved field ∧ ¬Surface.clashes CommandTree.globalNames field

end Exchange

theorem ExchangeMapping.surfaces_eq_ok {mapping : ExchangeMapping} {surfaces : List Surface} :
    mapping.surfaces = .ok surfaces ↔
      (∀ registered ∈ mapping.editable, ∀ field ∈ registered.fields,
        ¬Surface.clashes Surface.reserved field) ∧
      surfaces = mapping.editable.map fun registered =>
        ⟨registered.name, registered.fields,
          Surface.commandFor registered.name registered.fields⟩ := by
  refine Except.mapM_eq_ok_map fun registered surface => ?_
  rw [Except.mapError_eq_ok, Surface.build_eq_ok]

theorem CommandTree.withSurfaces_eq_ok {surfaces : List Surface} {command : Command} :
    withSurfaces surfaces = .ok command ↔
      (∀ surface ∈ surfaces, ∀ field ∈ surface.fields,
        ¬Surface.clashes globalNames field) ∧ command = root surfaces := by
  have each : (surfaces.forM fun surface => (surface.avoids globalNames).mapError
      (ConfigError.ofSchemaFault surface.api)) = .ok () ↔
      ∀ surface ∈ surfaces, ∀ field ∈ surface.fields, ¬Surface.clashes globalNames field := by
    simp only [Except.forM_eq_ok, Except.mapError_eq_ok, Surface.avoids_eq_ok]
  unfold withSurfaces
  rw [Except.bind_eq_ok]
  constructor
  · rintro ⟨_, free, same⟩
    cases same
    exact ⟨each.1 free, rfl⟩
  · rintro ⟨free, rfl⟩
    exact ⟨(), each.2 free, rfl⟩

namespace Workspace

def commandLine (workspace : Workspace) : Except ConfigError Command := do
  CommandTree.withSurfaces (← workspace.exchanges.surfaces)

theorem exists_commandLine_iff {workspace : Workspace} {exchanges : List Exchange}
    (built : ExchangeMapping.build exchanges = .ok workspace.exchanges) :
    (∃ command, workspace.commandLine = .ok command) ↔
      ∀ exchange ∈ exchanges, exchange.Offerable := by
  have described := ExchangeMapping.described_of_build built
  rw [← ExchangeMapping.exchanges_of_build built, ExchangeMapping.exchanges]
  constructor
  · rintro ⟨command, done⟩ exchange member
    obtain ⟨surfaces, made, done⟩ := Except.bind_eq_ok.1 done
    obtain ⟨notReserved, rfl⟩ := ExchangeMapping.surfaces_eq_ok.1 made
    obtain ⟨notGlobal, -⟩ := CommandTree.withSurfaces_eq_ok.1 done
    obtain ⟨registered, inMapping, rfl⟩ := List.mem_map.1 member
    -- Samples cannot be edited, so they give the command line no flags.
    by_cases sample : registered.exchange.isSample = true
    · exact .inl sample
    · refine .inr fun fields describes field inFields => ?_
      cases (described registered inMapping).symm.trans describes
      have editable : registered ∈ workspace.exchanges.editable := by
        simp [ExchangeMapping.editable, inMapping, sample]
      exact ⟨notReserved registered editable field inFields,
        notGlobal _ (List.mem_map_of_mem editable) field inFields⟩
  · intro offerable
    have free : ∀ registered ∈ workspace.exchanges.editable, ∀ field ∈ registered.fields,
        ¬Surface.clashes Surface.reserved field ∧
          ¬Surface.clashes CommandTree.globalNames field := by
      intro registered editable field inFields
      obtain ⟨inMapping, notSample⟩ := List.mem_filter.1 editable
      rcases offerable registered.exchange (List.mem_map_of_mem inMapping) with sample | free
      · simp [sample] at notSample
      · exact free registered.fields (described registered inMapping) field inFields
    have surfaces := ExchangeMapping.surfaces_eq_ok.2
      ⟨fun registered editable field inFields => (free registered editable field inFields).1, rfl⟩
    refine ⟨_, Except.bind_eq_ok.2 ⟨_, surfaces, CommandTree.withSurfaces_eq_ok.2 ⟨?_, rfl⟩⟩⟩
    intro surface member field inFields
    obtain ⟨registered, editable, rfl⟩ := List.mem_map.1 member
    exact (free registered editable field inFields).2

theorem commandLine_eq_error {workspace : Workspace} {error : ConfigError}
    (failed : workspace.commandLine = .error error) :
    ∃ api message, error = .schema api message := by
  -- Every fault of a schema is an error that names its exchange.
  have blames {α : Type} {api : String} {result : Except SchemaFault α}
      (refused : result.mapError (ConfigError.ofSchemaFault api) = .error error) :
      ∃ api message, error = .schema api message := by
    cases result with
    | ok value => cases refused
    | error fault =>
      cases refused
      exact ⟨api, fault.message, rfl⟩
  unfold commandLine at failed
  cases made : workspace.exchanges.surfaces with
  | error first =>
    rw [made] at failed
    cases failed
    obtain ⟨registered, -, refused⟩ := Except.mapM_eq_error made
    exact blames refused
  | ok surfaces =>
    rw [made, Except.ok_bind, CommandTree.withSurfaces] at failed
    cases free : (surfaces.forM fun surface => (surface.avoids CommandTree.globalNames).mapError
        (ConfigError.ofSchemaFault surface.api)) with
    | error first =>
      rw [free] at failed
      cases failed
      obtain ⟨surface, -, refused⟩ := Except.forM_eq_error free
      exact blames refused
    | ok done =>
      rw [free] at failed
      cases failed

end Workspace

/-! The command line after a module is added -/

/-- Where the command line of a workspace can be built, it still can be on the next load after a
module was added exactly when every exchange of a module that is loaded for the first time keeps
away from the taken names. Otherwise a schema is refused. -/
theorem next_commandLine_iff {catalog : Catalog} {database after : Database}
    {rows : Table AddedAt} (there : database.extensions = some rows) (ascending : Ascending rows)
    {workspace : Workspace} {skipped : List Skipped}
    (loaded : outcome (extensionStore.load catalog) database =
      (.ok (workspace, skipped), database))
    (ready : ∃ command, workspace.commandLine = .ok command) {module : String}
    {added : Manifest × List Exchange}
    (done : outcome (extensionStore.join workspace module) database = (.ok added, after)) :
    ∃ next nextSkipped,
      outcome (extensionStore.load catalog) after = (.ok (next, nextSkipped), after) ∧
      ((∃ command, next.commandLine = .ok command) ↔
        ∀ other part, after.Loaded nextSkipped other → ¬database.Loaded skipped other →
          catalog.part? other = some part → ∀ exchange ∈ part.exchanges, exchange.Offerable) ∧
      ∀ error, next.commandLine = .error error → ∃ api message, error = .schema api message := by
  obtain ⟨first, ran, assembled⟩ := load_cases there ascending catalog
  cases loaded.symm.trans ran
  have thereAfter := extensions_of_join there done
  have grown := Ascending.insert_ascending ascending module AddedAt.recorded
  obtain ⟨next, ranNext, nextAssembled⟩ := load_cases thereAfter grown catalog
  refine ⟨next, _, ranNext, ?_, fun error failed => Workspace.commandLine_eq_error failed⟩
  have gathers := @Assembly.gathers_ofModules catalog _ ((modules_ascending ascending).imp ne_of_lt)
  have nextGathers := @Assembly.gathers_ofModules catalog _ ((modules_ascending grown).imp ne_of_lt)
  simp only [loaded_iff there, loaded_iff thereAfter]
  have offerable := (Workspace.exists_commandLine_iff assembled.exchanges).1 ready
  rw [Workspace.exists_commandLine_iff nextAssembled.exchanges]
  constructor
  · intro all other part loads _ has exchange member
    exact all exchange ((nextGathers.exchanges exchange).2 (.inr ⟨other, part, loads, has, member⟩))
  · intro new exchange member
    -- Only exchanges of modules that were not loaded before are new to the command line.
    rcases (nextGathers.exchanges exchange).1 member with
      standard | ⟨other, part, loads, has, inPart⟩
    · exact offerable exchange ((gathers.exchanges exchange).2 (.inl standard))
    · by_cases old : Assembly.Loads catalog (rows.map (·.1)) other
      · exact offerable exchange
          ((gathers.exchanges exchange).2 (.inr ⟨other, part, old, has, inPart⟩))
      · exact new other part loads old has exchange inPart

/-- The fields of hash lists take no flag of others, so they can be edited on the next load. -/
theorem hashlist_offered : ∃ next nextSkipped,
    outcome (extensionStore.load .standard) withHashlist =
      (.ok (next, nextSkipped), withHashlist) ∧
    ∃ command, next.commandLine = .ok command := by
  have start : ∃ workspace command,
      outcome (extensionStore.load .standard) Database.empty =
        (.ok (workspace, []), Database.empty) ∧
      workspace.commandLine = .ok command ∧
      outcome (extensionStore.join workspace Catalog.hashlist.module) Database.empty =
        (.ok (Catalog.hashlist, [Catalog.hashlistExchange]), withHashlist) :=
    ⟨_, _, rfl, rfl, rfl⟩
  obtain ⟨workspace, command, loaded, ready, added⟩ := start
  obtain ⟨next, nextSkipped, ran, offered, -⟩ :=
    next_commandLine_iff rfl Ascending.nil loaded ⟨command, ready⟩ added
  refine ⟨next, nextSkipped, ran, offered.2 fun other part loads _ has exchange member => ?_⟩
  obtain ⟨⟨rows, there, inRows⟩, -⟩ := loads
  cases there
  cases List.mem_singleton.1 inRows
  have hashlist : Catalog.standard.part? Catalog.hashlist.module =
      some (Catalog.hashlist.part [Catalog.hashlistExchange]) := rfl
  cases hashlist.symm.trans has
  cases List.mem_singleton.1 member
  have described : Catalog.hashlistExchange.describe =
      .ok ((Catalog.hashlistExchange.schema.fields.filter (·.editable)).map Field.toEditable) := rfl
  refine .inr fun fields describes => ?_
  cases described.symm.trans describes
  decide

/-- An exchange with a field that has the flag of an edit command. -/
def flaggedExchange : Exchange :=
  { name := "demo", qualifiedName := "x::Demo"
    schema := Schema.ofFields "demo" [{ name := "json", type := .text }] }

def flagged : Manifest :=
  { module := "x"
    exchangeTypes := [⟨"demo", "x::Demo", .built flaggedExchange⟩] }

def withFlagged : Database := { Database.empty with extensions := some [("x", .recorded)] }

/-- A module is added whose field takes a flag of all edit commands, and from then on there is no
command line. -/
theorem added_takes_flag : ∃ workspace command next,
    outcome (extensionStore.load (Catalog.empty.add flagged)) Database.empty =
      (.ok (workspace, []), Database.empty) ∧
    workspace.commandLine = .ok command ∧
    outcome (extensionStore.join workspace "x") Database.empty =
      (.ok (flagged, [flaggedExchange]), withFlagged) ∧
    outcome (extensionStore.load (Catalog.empty.add flagged)) withFlagged =
      (.ok (next, []), withFlagged) ∧
    next.commandLine =
      .error (.schema "demo" "field 'json' collides with a built-in flag") := by
  refine ⟨_, _, _, rfl, rfl, rfl, rfl, rfl⟩

end SignalExchange
