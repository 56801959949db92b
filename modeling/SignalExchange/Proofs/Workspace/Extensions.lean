import SignalExchange.Proofs.Database.ExtensionTable
import SignalExchange.Proofs.Workspace.NextLoad

/-! Adding and removing extensions on freshly loaded workspaces.

A load never fails on a readable list of modules. A module that was added is looked at again by the
next load, in byte order.
-/

set_option autoImplicit false

namespace SignalExchange

open Call Database

namespace Workspace

/-- The workspace is what the modules of a list are assembled to. -/
structure Assembled (catalog : Catalog) (modules : List String) (workspace : Workspace) :
    Prop where
  sameCatalog : workspace.catalog = catalog
  sameRegistry : workspace.registry = (Assembly.ofModules catalog modules).registry
  exchanges : ExchangeMapping.build (Assembly.ofModules catalog modules).registry.exchanges =
    .ok workspace.exchanges

theorem assemble_eq_ok (catalog : Catalog) {modules : List String} (distinct : modules.Nodup) :
    ∃ workspace, assemble catalog modules =
        .ok (workspace, (Assembly.ofModules catalog modules).skipped) ∧
      workspace.Assembled catalog modules := by
  have gathers := @Assembly.gathers_ofModules catalog _ distinct
  obtain ⟨mapping, built⟩ := gathers.consistent.exchangeMapping
  have joined : modules.foldl (Assembly.join catalog) .start =
      Assembly.ofModules catalog modules := rfl
  refine ⟨⟨catalog, ⟨(Assembly.ofModules catalog modules).registry.contentTypes,
    (Assembly.ofModules catalog modules).registry.signalTypes⟩, mapping,
    (Assembly.ofModules catalog modules).extensions⟩, ?_, rfl, ?_, built⟩
  · rw [assemble, joined]
    simp only [gathers.consistent.types, built]
    rfl
  · rw [registry, ExchangeMapping.exchanges_of_build built]

/-- What a module adds to the registry of the workspace, if it can be loaded and fits. -/
def contribution (workspace : Workspace) (module : String) :
    Except ConfigError (Manifest × List Exchange) :=
  Assembly.contribution workspace.catalog ⟨workspace.registry, [], []⟩ module

theorem contribution_eq_ok {workspace : Workspace} {module : String} {manifest : Manifest}
    {built : List Exchange} :
    workspace.contribution module = .ok (manifest, built) ↔
      workspace.catalog.find? module = some manifest ∧
        manifest.fit workspace.registry = .ok built :=
  Assembly.contribution_eq_ok_fit

end Workspace

theorem modules_ascending {rows : Table AddedAt} (ascending : Ascending rows) :
    (rows.map (·.1)).Pairwise (· < ·) := List.pairwise_map.2 ascending

/-- What can be had from an empty list by adding and removing, each on a fresh workspace. -/
inductive ExtensionsReached (catalog : Catalog) : Database → Prop where
  | start {database : Database} (none : database.extensions = some []) :
      ExtensionsReached catalog database
  | added {database after : Database} {workspace : Workspace} {skipped : List Skipped}
      {module : String} {added : Manifest × List Exchange}
      (before : ExtensionsReached catalog database)
      (loaded : outcome (extensionStore.load catalog) database =
        (.ok (workspace, skipped), database))
      (done : outcome (extensionStore.join workspace module) database = (.ok added, after)) :
      ExtensionsReached catalog after
  | removed {database after : Database} {module : String}
      (before : ExtensionsReached catalog database)
      (done : outcome (extensionStore.leave module) database = (.ok (), after)) :
      ExtensionsReached catalog after

section

variable {database : Database} {rows : Table AddedAt}

theorem outcome_load (there : database.extensions = some rows) (catalog : Catalog) :
    outcome (extensionStore.load catalog) database =
      (Workspace.assemble catalog (rows.map (·.1)), database) := by
  rw [ExtensionStore.load, outcome_bind]
  simp [extensionStore, outcome_listExtensions there]

theorem outcome_join (there : database.extensions = some rows) (workspace : Workspace)
    (module : String) :
    outcome (extensionStore.join workspace module) database =
      match Ascending.find? module rows with
      | some addedAt =>
        (match addedAt.read with
          | .ok _ => .error (.extensionAlreadyAdded module)
          | .error error => .error (.storage error), database)
      | none =>
        match workspace.contribution module with
        | .ok added => (.ok added, { database with
            extensions := some (Ascending.insert module .recorded rows) })
        | .error error => (.error error, database) := by
  have has := outcome_hasExtension there module
  have adds := outcome_addExtension there module
  rw [ExtensionStore.join, outcome_bind]
  simp only [extensionStore, outcome_onStore, has]
  -- A row under the name is looked at before the module is.
  cases found : Ascending.find? module rows with
  | some addedAt => cases read : addedAt.read <;> simp [read]
  | none =>
    rw [found] at adds
    simp only [Except.mapError_ok, Bool.false_eq_true, if_false, outcome_bind, outcome_ofExcept,
      Workspace.contribution, Assembly.contribution]
    cases workspace.catalog.load module with
    | error error => rfl
    | ok manifest =>
      simp only [Except.ok_bind]
      cases manifest.fit workspace.registry with
      | error error => rfl
      | ok built =>
        simp only [outcome_onStore, adds]
        rfl

theorem join_eq_ok (there : database.extensions = some rows) {workspace : Workspace}
    {module : String} {manifest : Manifest} {built : List Exchange} {after : Database} :
    outcome (extensionStore.join workspace module) database = (.ok (manifest, built), after) ↔
      Ascending.find? module rows = none ∧ workspace.catalog.find? module = some manifest ∧
        manifest.fit workspace.registry = .ok built ∧
        after = { database with
          extensions := some (Ascending.insert module .recorded rows) } := by
  rw [outcome_join there, ← and_assoc (a := workspace.catalog.find? module = some manifest),
    ← Workspace.contribution_eq_ok]
  cases Ascending.find? module rows with
  | some addedAt => cases read : addedAt.read <;> simp [read]
  | none => cases workspace.contribution module <;> simp [eq_comm]

theorem join_eq_error (there : database.extensions = some rows) {workspace : Workspace}
    {module : String} {error : ConfigError} {after : Database}
    (failed : outcome (extensionStore.join workspace module) database = (.error error, after)) :
    after = database := by
  rw [outcome_join there] at failed
  cases found : Ascending.find? module rows with
  | some addedAt =>
    rw [found] at failed
    exact (congrArg Prod.snd failed).symm
  | none =>
    rw [found] at failed
    cases given : workspace.contribution module with
    | error cause =>
      rw [given] at failed
      exact (congrArg Prod.snd failed).symm
    | ok added =>
      rw [given] at failed
      cases failed

theorem extensions_of_join (there : database.extensions = some rows) {workspace : Workspace}
    {module : String} {added : Manifest × List Exchange} {after : Database}
    (done : outcome (extensionStore.join workspace module) database = (.ok added, after)) :
    after.extensions = some (Ascending.insert module .recorded rows) := by
  obtain ⟨-, -, -, rfl⟩ := (join_eq_ok there).1 done
  rfl

theorem outcome_leave (there : database.extensions = some rows) (module : String) :
    outcome (extensionStore.leave module) database =
      match Ascending.find? module rows with
      | some _ =>
        (.ok (), { database with extensions := some (Ascending.erase module rows) })
      | none => (.error (.extensionNotAdded module), database) := by
  have removes := outcome_removeExtension there module
  rw [ExtensionStore.leave, outcome_bind]
  simp only [extensionStore, outcome_onStore, removes]
  cases Ascending.find? module rows with
  | some addedAt => rfl
  | none => rfl

theorem leave_eq_ok (there : database.extensions = some rows) {module : String}
    {after : Database} :
    outcome (extensionStore.leave module) database = (.ok (), after) ↔
      (Ascending.find? module rows).isSome ∧
        after = { database with extensions := some (Ascending.erase module rows) } := by
  rw [outcome_leave there]
  cases Ascending.find? module rows with
  | none => simp
  | some addedAt => simp [eq_comm]

theorem leave_eq_error (there : database.extensions = some rows) {module : String}
    {error : ConfigError} {after : Database}
    (failed : outcome (extensionStore.leave module) database = (.error error, after)) :
    after = database := by
  rw [outcome_leave there] at failed
  cases found : Ascending.find? module rows with
  | some addedAt =>
    rw [found] at failed
    cases failed
  | none =>
    rw [found] at failed
    exact (congrArg Prod.snd failed).symm

theorem ExtensionsReached.ascending {catalog : Catalog}
    (reached : ExtensionsReached catalog database) :
    ∃ rows, database.extensions = some rows ∧ Ascending rows := by
  induction reached with
  | start none => exact ⟨[], none, Ascending.nil⟩
  | added _ _ done ih =>
    obtain ⟨rows, there, ascending⟩ := ih
    exact ⟨_, extensions_of_join there done, Ascending.insert_ascending ascending _ _⟩
  | removed _ done ih =>
    obtain ⟨rows, there, ascending⟩ := ih
    obtain ⟨-, rfl⟩ := (leave_eq_ok there).1 done
    exact ⟨_, rfl, Ascending.erase_ascending ascending _⟩

end

/-- The module is in the list of the database, and the load did not skip it. -/
def Database.Loaded (database : Database) (skipped : List Skipped) (module : String) : Prop :=
  (∃ rows, database.extensions = some rows ∧ module ∈ rows.map (·.1)) ∧
    module ∉ skipped.map (·.module)

theorem loaded_iff {database : Database} {rows : Table AddedAt}
    (there : database.extensions = some rows) (catalog : Catalog) (module : String) :
    database.Loaded (Assembly.ofModules catalog (rows.map (·.1))).skipped module ↔
      Assembly.Loads catalog (rows.map (·.1)) module := by
  simp [Database.Loaded, Assembly.Loads, there]

theorem load_cases {database : Database} {rows : Table AddedAt}
    (there : database.extensions = some rows) (ascending : Ascending rows) (catalog : Catalog) :
    ∃ workspace, outcome (extensionStore.load catalog) database =
        (.ok (workspace, (Assembly.ofModules catalog (rows.map (·.1))).skipped), database) ∧
      workspace.Assembled catalog (rows.map (·.1)) := by
  have distinct : (rows.map (·.1)).Nodup := (modules_ascending ascending).imp ne_of_lt
  obtain ⟨workspace, done, assembled⟩ := Workspace.assemble_eq_ok catalog distinct
  exact ⟨workspace, by rw [outcome_load there, done], assembled⟩

/-- After a module was added, the next load takes it and all that were loaded before exactly when
the content types that it refers to are standard, its own, or of loaded modules below it, and no
module that was skipped before joins now and clashes with a loaded one above it. -/
theorem next_load_iff {catalog : Catalog} {database after : Database}
    (reached : ExtensionsReached catalog database) {workspace : Workspace}
    {skipped : List Skipped}
    (loaded : outcome (extensionStore.load catalog) database =
      (.ok (workspace, skipped), database))
    {module : String} {manifest : Manifest} {built : List Exchange}
    (added : outcome (extensionStore.join workspace module) database =
      (.ok (manifest, built), after)) :
    ∃ next nextSkipped,
      outcome (extensionStore.load catalog) after = (.ok (next, nextSkipped), after) ∧
      ((after.Loaded nextSkipped module ∧
          ∀ other, database.Loaded skipped other → after.Loaded nextSkipped other) ↔
        (∀ signal ∈ manifest.signalTypes, ∀ name ∈ signal.contentTypes,
          catalog.Known (fun other => other < module ∧ database.Loaded skipped other)
            (manifest.part built) name) ∧
        ∀ revived kept, after.Loaded nextSkipped revived → ¬database.Loaded skipped revived →
          revived ≠ module → database.Loaded skipped kept → revived < kept →
          ¬catalog.Clash revived kept) := by
  obtain ⟨rows, there, ascending⟩ := reached.ascending
  obtain ⟨first, ran, assembled⟩ := load_cases there ascending catalog
  cases loaded.symm.trans ran
  obtain ⟨-, resolved, fits, -⟩ := (join_eq_ok there).1 added
  have thereAfter := extensions_of_join there added
  have grown := Ascending.insert_ascending ascending module AddedAt.recorded
  obtain ⟨next, ranNext, -⟩ := load_cases thereAfter grown catalog
  refine ⟨next, _, ranNext, ?_⟩
  have before := modules_ascending ascending
  have gathers := @Assembly.gathers_ofModules catalog _ (before.imp ne_of_lt)
  -- The module was held against the registry of the workspace, which gathers all loaded modules.
  obtain ⟨candidates, consistent⟩ := Manifest.fit_eq_ok.1 fits
  rw [assembled.sameRegistry] at consistent
  rw [assembled.sameCatalog] at resolved
  have has : catalog.part? module = some (manifest.part built) :=
    Catalog.part?_eq_some.2 ⟨manifest, built, resolved, candidates, rfl⟩
  have members (other : String) := @Ascending.mem_keys_insert _ module other AddedAt.recorded rows
  have keeps := Assembly.keeps_loaded_iff before (modules_ascending grown) members has
    (gathers.extend_consistent_iff.1 consistent)
  simp only [loaded_iff there, loaded_iff thereAfter]
  exact keeps

def withHashlist : Database :=
  { Database.empty with extensions := some [(Catalog.hashlist.module, .recorded)] }

def withBoth : Database :=
  { Database.empty with
    extensions := some [(Catalog.hashlist.module, .recorded), (Catalog.tlsh.module, .recorded)] }

theorem hashlist_reached : ExtensionsReached .standard withHashlist := by
  have done : ∃ workspace,
      outcome (extensionStore.load .standard) Database.empty =
        (.ok (workspace, []), Database.empty) ∧
      outcome (extensionStore.join workspace Catalog.hashlist.module) Database.empty =
        (.ok (Catalog.hashlist, [Catalog.hashlistExchange]), withHashlist) := ⟨_, rfl, rfl⟩
  obtain ⟨workspace, loaded, added⟩ := done
  exact .added (.start rfl) loaded added

/-- The second extension refers to a standard content type, so it is loaded next time, and the first
one is loaded again. -/
theorem tlsh_stays : ∃ next nextSkipped,
    outcome (extensionStore.load .standard) withBoth = (.ok (next, nextSkipped), withBoth) ∧
      withHashlist.Loaded [] Catalog.hashlist.module ∧
      withBoth.Loaded nextSkipped Catalog.hashlist.module ∧
      withBoth.Loaded nextSkipped Catalog.tlsh.module := by
  have done : ∃ workspace,
      outcome (extensionStore.load .standard) withHashlist =
        (.ok (workspace, []), withHashlist) ∧
      outcome (extensionStore.join workspace Catalog.tlsh.module) withHashlist =
        (.ok (Catalog.tlsh, []), withBoth) := ⟨_, rfl, rfl⟩
  obtain ⟨workspace, loaded, added⟩ := done
  have before : withHashlist.Loaded [] Catalog.hashlist.module :=
    ⟨⟨_, rfl, List.mem_cons_self⟩, List.not_mem_nil⟩
  obtain ⟨next, nextSkipped, ran, stays⟩ := next_load_iff hashlist_reached loaded added
  have standard : ∀ signal ∈ Catalog.tlsh.signalTypes, ∀ name ∈ signal.contentTypes,
      name ∈ Registry.standard.names .content := by decide
  obtain ⟨tlsh, earlier⟩ := stays.2 ⟨fun signal member name refers =>
    .inl (standard signal member name refers), by
      -- Only the two modules are listed, and neither of them was skipped before.
      rintro revived kept ⟨⟨rows, there, member⟩, -⟩ skipped notAdded
      cases there
      rcases List.mem_cons.1 member with rfl | second
      · exact absurd before skipped
      · exact absurd (List.mem_singleton.1 second) notAdded⟩
  exact ⟨next, nextSkipped, ran, before, earlier _ before, tlsh⟩

/-! A module that refers to one above it -/

def clips : Manifest := { module := "b", contentTypes := [⟨"clip", "b::Clip"⟩] }

def clipHashes : Manifest :=
  { module := "a", signalTypes := [⟨"clip_md5", "a::ClipMd5", ["clip"]⟩] }

def clipCatalog : Catalog := (Catalog.empty.add clips).add clipHashes

def withClips : Database := { Database.empty with extensions := some [("b", .recorded)] }

def withClipHashes : Database :=
  { Database.empty with extensions := some [("a", .recorded), ("b", .recorded)] }

theorem clips_reached : ExtensionsReached clipCatalog withClips := by
  have done : ∃ workspace,
      outcome (extensionStore.load clipCatalog) Database.empty =
        (.ok (workspace, []), Database.empty) ∧
      outcome (extensionStore.join workspace "b") Database.empty =
        (.ok (clips, []), withClips) := ⟨_, rfl, rfl⟩
  obtain ⟨workspace, loaded, added⟩ := done
  exact .added (.start rfl) loaded added

/-- A signal type is added while the module of its content type is loaded, and the next load skips
it, because it comes first in byte order. -/
theorem added_is_skipped : ∃ workspace next, ExtensionsReached clipCatalog withClips ∧
    outcome (extensionStore.load clipCatalog) withClips = (.ok (workspace, []), withClips) ∧
    outcome (extensionStore.join workspace "a") withClips =
      (.ok (clipHashes, []), withClipHashes) ∧
    outcome (extensionStore.load clipCatalog) withClipHashes =
      (.ok (next, [⟨"a", .incompatibleSignalType "clip_md5" "clip"⟩]), withClipHashes) ∧
    ¬withClipHashes.Loaded [⟨"a", .incompatibleSignalType "clip_md5" "clip"⟩] "a" := by
  refine ⟨_, _, clips_reached, rfl, rfl, rfl, ?_⟩
  simp [Database.Loaded]

end SignalExchange
