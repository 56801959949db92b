import SignalExchange.Proofs.Arguments.Shares
import SignalExchange.Proofs.Program.Edits
import SignalExchange.Proofs.Program.Rows

/-! Runs whose words the command line takes.

The exchanges of the command line are the standard ones, and that of the one module of the program
that adds any.
-/

set_option autoImplicit false

namespace SignalExchange

open Call Database

/-! The exchanges of the program -/

theorem candidates_of_standard {module : String} {manifest : Manifest} {built : List Exchange}
    (found : Catalog.standard.find? module = some manifest)
    (candidates : manifest.exchangeTypes.mapM (·.candidate) = .ok built) :
    ∀ exchange ∈ built, exchange = Catalog.hashlistExchange := by
  unfold Catalog.standard Catalog.add at found
  simp only at found
  split at found
  · cases found
    cases candidates
    exact fun exchange member => List.mem_singleton.1 member
  · split at found
    · cases found
      cases candidates
      exact fun exchange member => nomatch member
    · cases found

theorem exchanges_of_modules (modules : List String) :
    ∃ added, (∀ exchange ∈ added, exchange = Catalog.hashlistExchange) ∧
      (Assembly.ofModules .standard modules).registry.exchanges =
        Registry.standard.exchanges ++ added := by
  induction modules using List.reverseRecOn with
  | nil => exact ⟨[], nofun, rfl⟩
  | append_singleton modules last ih =>
    obtain ⟨added, standard, same⟩ := ih
    rw [Assembly.ofModules_concat, Assembly.join]
    split
    next manifest built contributed =>
      obtain ⟨found, candidates, -⟩ := Assembly.contribution_eq_ok.1 contributed
      refine ⟨added ++ built, fun exchange member => ?_, ?_⟩
      · rcases List.mem_append.1 member with before | new
        · exact standard exchange before
        · exact candidates_of_standard found candidates exchange new
      · rw [← List.append_assoc, ← same]
        rfl
    next => exact ⟨added, standard, same⟩

namespace Program

open CommandM

/-- The words are matched on the command line of the workspace that the database gives. -/
structure Takes (words : List String) (session : Session) (workspace : Workspace)
    (surfaces : List Surface) (found : Matches) : Prop where
  loaded : ∃ skipped, outcome (extensionStore.load .standard) session.database =
    (.ok (workspace, skipped), session.database)
  exchanges : ∃ added, (∀ exchange ∈ added, exchange = Catalog.hashlistExchange) ∧
    ExchangeMapping.build (Registry.standard.exchanges ++ added) = .ok workspace.exchanges
  made : workspace.exchanges.surfaces = .ok surfaces
  free : CommandTree.withSurfaces surfaces = .ok (CommandTree.root surfaces)
  parsed : (CommandTree.root surfaces).parse words = .ok found

theorem load_standard {database after : Database} {workspace : Workspace} {skipped : List Skipped}
    (loaded : outcome (extensionStore.load .standard) database =
      (.ok (workspace, skipped), after)) :
    after = database ∧ ∃ added, (∀ exchange ∈ added, exchange = Catalog.hashlistExchange) ∧
      ExchangeMapping.build (Registry.standard.exchanges ++ added) = .ok workspace.exchanges := by
  cases there : database.extensions with
  | none =>
    have failed : (outcome (extensionStore.load .standard) database).1 =
        .error (.storage (.engine (.noSuchTable extensionTable))) := by
      simp [ExtensionStore.load, extensionStore, outcome_bind, Database.listExtensions,
        extensionRows, rowsOf, there]
    rw [loaded] at failed
    cases failed
  | some rows =>
    rw [outcome_load there] at loaded
    obtain ⟨assembled, same⟩ := Prod.mk.inj loaded
    obtain ⟨types, -, rest⟩ := Except.bind_eq_ok.1 assembled
    obtain ⟨mapping, built, done⟩ := Except.bind_eq_ok.1 rest
    cases done
    obtain ⟨added, standard, exchanges⟩ := exchanges_of_modules (rows.map (·.1))
    refine ⟨same.symm, added, standard, ?_⟩
    rw [← exchanges]
    exact built

variable {words : List String} {session : Session} {found : Matches}

theorem takes_of_matched (accepted : (outcome (matched words) session).1 = .ok (.ok found)) :
    ∃ workspace surfaces, Takes words session workspace surfaces found := by
  rcases ran : outcome (matched words) session with ⟨result, after⟩
  rw [ran] at accepted
  cases accepted
  obtain ⟨⟨workspace, skipped⟩, middle, load, ran⟩ := outcome_bind_eq_ok.1 ran
  obtain ⟨surfaces, _, made, ran⟩ := outcome_bind_eq_ok.1 ran
  obtain ⟨command, _, free, ran⟩ := outcome_bind_eq_ok.1 ran
  rw [outcome_pure?] at made free
  have made := Except.mapError_eq_ok.1 (Prod.mk.inj made).1
  have free := Except.mapError_eq_ok.1 (Prod.mk.inj free).1
  rw [config, outcome_onDatabase] at load
  have loaded := Except.mapError_eq_ok.1 (Prod.mk.inj load).1
  obtain ⟨same, exchanges⟩ := load_standard (Prod.ext loaded rfl)
  obtain ⟨-, rfl⟩ := CommandTree.withSurfaces_eq_ok.1 free
  exact ⟨workspace, surfaces, ⟨skipped, Prod.ext loaded same⟩, exchanges, made, free,
    Except.ok.inj (Prod.mk.inj ran).1⟩

theorem runOn_of_takes {workspace : Workspace} {surfaces : List Surface}
    (takes : Takes words session workspace surfaces found) (environment : Environment) :
    runOn environment words session =
      match outcome (respond environment workspace surfaces (.ok found)) session with
      | (.ok ending, session) => (ending, session)
      | (.error error, session) => (.failed error, session) := by
  obtain ⟨skipped, loaded⟩ := takes.loaded
  have performed : outcome (perform environment words) session =
      outcome (respond environment workspace surfaces (.ok found)) session := by
    rw [perform_eq]
    simp only [outcome_bind, config, outcome_onDatabase, loaded, Except.mapError_ok, outcome_pure?,
      takes.made, takes.free, takes.parsed]
  unfold outcome at performed
  rw [runOn, performed]
  rfl

theorem respond_api {name : String} (path : found.path = ["config", "api", name])
    (environment : Environment) (workspace : Workspace) (surfaces : List Surface) :
    respond environment workspace surfaces (.ok found) = Ending.printed <$>
      apiCommand environment workspace (.mk [] (some (name, found.innermost))) := by
  match found, path with
  | .mk _ (some (_, .mk _ (some (_, .mk _ (some (_, .mk _ none)))))), rfl =>
    rw [← bind_pure_comp]
    rfl

end Program

/-! The commands of the program -/

namespace CommandTree

open Command

/-- The arguments that every command has from the one above it. -/
def inherited : List Argument := [dataDirectory, verbose]

/-- The argument has none of the names of the inherited ones, and is not inherited itself. -/
structure Apart (argument : Argument) : Prop where
  own : argument.global = false
  id : argument.id ∉ globalNames
  long : ∀ name ∈ argument.long, name ∉ globalNames

/-- At every level the arguments are apart from the inherited ones, and no name of a subcommand
looks like that of an argument. -/
inductive Spares : Command → Prop where
  | intro {command : Command} (arguments : ∀ argument ∈ command.arguments, Apart argument)
      (names : ∀ sub ∈ command.subcommands, isPlain sub.name = true)
      (inner : ∀ sub ∈ command.subcommands, Spares sub) : Spares command

section

variable {command : Command} (apart : ∀ argument ∈ command.arguments, Apart argument)

include apart

theorem arguments_inheriting :
    (command.inheriting inherited).arguments = command.arguments ++ inherited := by
  have names : ∀ argument ∈ inherited, argument.id ∈ globalNames := by decide
  have all : inherited.filter (fun argument => argument.id ∉ command.arguments.map (·.id)) =
      inherited := by
    refine List.filter_eq_self.2 fun argument member => decide_eq_true fun taken => ?_
    obtain ⟨other, inCommand, same⟩ := List.mem_map.1 taken
    exact (apart other inCommand).id (same ▸ names argument member)
  rw [inheriting, all]

theorem globals_inheriting : (command.inheriting inherited).globals = inherited := by
  have none : command.arguments.filter (·.global) = [] :=
    List.filter_eq_nil_iff.2 fun argument member => by simp [(apart argument member).own]
  rw [globals, arguments_inheriting apart, List.filter_append, none]
  rfl

theorem reserves_inheriting : (command.inheriting inherited).Reserves dataDirectory := by
  have only : ∀ other ∈ inherited ++ [Argument.helpSwitch],
      other.id = dataDirectory.id ∨ other.long = dataDirectory.long → other = dataDirectory := by
    decide
  refine ⟨nofun, rfl, fun other member same => ?_⟩
  rw [allArguments, arguments_inheriting apart, List.append_assoc] at member
  rcases List.mem_append.1 member with own | shared
  · rcases same with isId | isLong
    · exact absurd (isId ▸ (by decide : dataDirectory.id ∈ globalNames)) (apart other own).id
    · exact absurd (by decide) ((apart other own).long "data-dir" isLong)
  · exact only other shared same

end

theorem parts_of_spares {command : Command} (spares : Spares command) {path : List String}
    {inner : Command} (leads : descend path (command.inheriting inherited) = some inner) :
    inner.Parts dataDirectory := by
  induction spares generalizing path inner with
  | @intro command apart names _ ih =>
    cases path with
    | nil =>
      cases leads
      exact ⟨reserves_inheriting apart, names⟩
    | cons name path =>
      obtain ⟨sub, named, leads⟩ := Option.bind_eq_some_iff.1 leads
      rw [globals_inheriting apart] at leads
      exact ih sub (List.mem_of_find?_eq_some named) leads

theorem spares_of_each {command : Command} (apart : ∀ argument ∈ command.arguments, Apart argument)
    (each : ∀ sub ∈ command.subcommands, isPlain sub.name = true ∧ Spares sub) : Spares command :=
  .intro apart (fun sub member => (each sub member).1) fun sub member => (each sub member).2

theorem spares_leaf {command : Command} (apart : ∀ argument ∈ command.arguments, Apart argument)
    (flat : command.subcommands = []) : Spares command := by
  refine spares_of_each apart ?_
  simp [flat]

instance (argument : Argument) : Decidable (Apart argument) :=
  decidable_of_iff (argument.global = false ∧ argument.id ∉ globalNames ∧
      ∀ name ∈ argument.long, name ∉ globalNames)
    ⟨fun ⟨own, id, long⟩ => ⟨own, id, long⟩, fun ⟨own, id, long⟩ => ⟨own, id, long⟩⟩

theorem apart_field {field : EditableField} (free : ¬Surface.clashes globalNames field) :
    Apart field.argument := by
  have own : field.argument.global = false := by
    unfold EditableField.argument
    split <;> rfl
  simp only [Surface.clashes, Bool.or_eq_true, decide_eq_true_eq, not_or] at free
  refine ⟨own, ?_, ?_⟩
  · rw [EditableField.argument_id]
    exact free.1
  · rw [EditableField.argument_long]
    rintro name ⟨⟩
    exact free.2

theorem spares_surface {api : String} {fields : List EditableField}
    (free : ∀ field ∈ fields, ¬Surface.clashes globalNames field) :
    Spares (Surface.commandFor api fields) := by
  have fixed : ∀ argument ∈ Surface.fixedArguments, Apart argument := by decide
  refine spares_leaf (fun argument member => ?_) rfl
  rcases List.mem_append.1 member with inFixed | isField
  · exact fixed argument inFixed
  · obtain ⟨field, inFields, rfl⟩ := List.mem_map.1 isField
    exact apart_field (free field inFields)

theorem spares_api : Spares api := by
  refine spares_of_each (by decide) ?_
  simp only [api, List.forall_mem_cons]
  exact ⟨⟨by decide, spares_leaf (by decide) rfl⟩, ⟨by decide, spares_leaf (by decide) rfl⟩, nofun⟩

theorem spares_extensions : Spares extensions := by
  refine spares_of_each (by decide) ?_
  simp only [extensions, List.forall_mem_cons]
  exact ⟨⟨by decide, spares_leaf (by decide) rfl⟩, ⟨by decide, spares_leaf (by decide) rfl⟩,
    ⟨by decide, spares_leaf (by decide) rfl⟩, nofun⟩

theorem spares_config {surfaces : List Surface} (each : ∀ surface ∈ surfaces,
    isPlain surface.command.name = true ∧ Spares surface.command) : Spares (config surfaces) := by
  have edits : Spares (edit surfaces) := by
    refine spares_of_each (by simp [edit]) fun sub member => ?_
    obtain ⟨surface, inSurfaces, rfl⟩ := List.mem_map.1 member
    exact each surface inSurfaces
  have collabs : Spares (collab surfaces) := by
    refine spares_of_each (by simp [collab]) ?_
    simp only [collab, List.forall_mem_cons]
    exact ⟨⟨by decide, spares_leaf (by decide) rfl⟩, ⟨(by decide : isPlain "edit" = true), edits⟩,
      ⟨by decide, spares_leaf (by decide) rfl⟩, nofun⟩
  refine spares_of_each (by simp [config]) ?_
  simp only [config, List.forall_mem_cons]
  exact ⟨⟨(by decide : isPlain "collab" = true), collabs⟩, ⟨by decide, spares_leaf (by decide) rfl⟩,
    ⟨by decide, spares_leaf (by decide) rfl⟩, ⟨by decide, spares_api⟩,
    ⟨by decide, spares_extensions⟩, nofun⟩

theorem parts_of_takes {words : List String} {session : Session} {workspace : Workspace}
    {surfaces : List Surface} {found : Matches}
    (takes : Program.Takes words session workspace surfaces found) {path : List String}
    {inner : Command} (leads : descend path (root surfaces) = some inner) :
    inner.Parts dataDirectory := by
  obtain ⟨added, standard, built⟩ := takes.exchanges
  obtain ⟨-, same⟩ := ExchangeMapping.surfaces_eq_ok.1 takes.made
  obtain ⟨free, -⟩ := withSurfaces_eq_ok.1 takes.free
  -- No exchange has a name that looks like that of an argument, also not the one that can be added.
  have plain : ∀ exchange ∈ Registry.standard.exchanges ++ added,
      isPlain exchange.name = true := by
    have own : ∀ exchange ∈ Registry.standard.exchanges, isPlain exchange.name = true := by decide
    intro exchange member
    rcases List.mem_append.1 member with inStandard | isAdded
    · exact own exchange inStandard
    · rw [standard exchange isAdded]
      decide
  have each : ∀ surface ∈ surfaces,
      isPlain surface.command.name = true ∧ Spares surface.command := by
    intro surface member
    have own := free surface member
    rw [same] at member
    obtain ⟨registered, editable, rfl⟩ := List.mem_map.1 member
    refine ⟨plain registered.exchange ?_, spares_surface own⟩
    rw [← ExchangeMapping.exchanges_of_build built]
    exact List.mem_map_of_mem (List.mem_of_mem_filter editable)
  cases path with
  | nil =>
    cases leads
    have only : ∀ other ∈ [dataDirectory, verbose, Argument.versionSwitch, Argument.helpSwitch],
        other.id = dataDirectory.id ∨ other.long = dataDirectory.long → other = dataDirectory := by
      decide
    refine ⟨⟨nofun, rfl, only⟩, fun sub member => ?_⟩
    cases List.mem_singleton.1 member
    exact (by decide : isPlain "config" = true)
  | cons name path =>
    obtain ⟨sub, named, leads⟩ := Option.bind_eq_some_iff.1 leads
    cases List.mem_singleton.1 (List.mem_of_find?_eq_some named)
    exact parts_of_spares (spares_config each) leads

/-- The arguments that commands without arguments of their own have. -/
def shared : List Argument :=
  [dataDirectory, verbose, Argument.versionSwitch, Argument.helpSwitch]

theorem shared_of_before_api {surfaces : List Surface} {name : String} {before : List String}
    {inner : Command} (within : before <+: ["config", "api", name])
    (leads : descend before (root surfaces) = some inner) :
    before = ["config", "api", name] ∨ inner.allArguments ⊆ shared := by
  have among := (List.mem_inits _ _).2 within
  simp only [List.inits, List.map_cons, List.map_nil, List.mem_cons, List.not_mem_nil,
    or_false] at among
  rcases among with rfl | rfl | rfl | same
  · cases leads
    exact .inr fun _ member => member
  · have leads : some ((config surfaces).inheriting inherited) = some inner := leads
    cases leads
    exact .inr (by decide : [dataDirectory, verbose, Argument.helpSwitch] ⊆ shared)
  · have leads : some (api.inheriting inherited) = some inner := leads
    cases leads
    exact .inr (by decide)
  · exact .inl same

end CommandTree

end SignalExchange
