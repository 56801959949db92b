import SignalExchange.Proofs.Workspace.Admissions

/-! Extensions that are loaded, added and removed in any order.

The list of modules follows from the calls alone. What a module is held against follows from the
list at the last load, which the calls since then have left behind.
-/

set_option autoImplicit false

namespace SignalExchange

open Call Database

inductive ExtensionCall where
  | load (catalog : Catalog)
  | add (module : String)
  | remove (module : String)

/-- One of the calls added the module, and none after it removed it. -/
def Stands (calls : List ExtensionCall) (module : String) : Prop :=
  ∃ before after, calls = before ++ .add module :: after ∧ .remove module ∉ after

theorem stands_concat_iff {calls : List ExtensionCall} {last : ExtensionCall} {module : String} :
    Stands (calls ++ [last]) module ↔
      last = .add module ∨ (last ≠ .remove module ∧ Stands calls module) := by
  constructor
  · intro stands
    obtain ⟨before, after, same, kept⟩ := stands
    cases after using List.reverseRecOn with
    | nil =>
      obtain ⟨-, added⟩ := List.append_inj' same rfl
      exact .inl (List.head_eq_of_cons_eq added)
    | append_singleton middle final =>
      rw [← List.cons_append, ← List.append_assoc] at same
      obtain ⟨rfl, behind⟩ := List.append_inj' same rfl
      cases behind
      rw [List.mem_append, List.mem_singleton, not_or] at kept
      exact .inr ⟨Ne.symm kept.2, before, middle, rfl, kept.1⟩
  · intro stands
    rcases stands with rfl | ⟨spared, before, after, rfl, kept⟩
    · exact ⟨calls, [], rfl, List.not_mem_nil⟩
    · refine ⟨before, after ++ [last], by simp, ?_⟩
      rw [List.mem_append, List.mem_singleton, not_or]
      exact ⟨kept, Ne.symm spared⟩

/-- The last load among the calls is one of a catalog, behind the calls before it. -/
def LoadedLast (calls before : List ExtensionCall) (catalog : Catalog) : Prop :=
  ∃ after, calls = before ++ .load catalog :: after ∧ ∀ other, .load other ∉ after

theorem LoadedLast.concat {calls before : List ExtensionCall} {catalog : Catalog}
    (loaded : LoadedLast calls before catalog) {last : ExtensionCall}
    (other : ∀ catalog, last ≠ .load catalog) :
    LoadedLast (calls ++ [last]) before catalog := by
  obtain ⟨after, rfl, none⟩ := loaded
  refine ⟨after ++ [last], by simp, fun catalog => ?_⟩
  rw [List.mem_append, List.mem_singleton, not_or]
  exact ⟨none catalog, Ne.symm (other catalog)⟩

/-- A database with the workspace of the last load, and the calls that succeeded, oldest first. -/
structure ExtensionSession where
  database : Database
  workspace : Workspace
  done : List ExtensionCall

namespace ExtensionSession

def perform (session : ExtensionSession) : ExtensionCall → ExtensionSession
  | .load catalog =>
    match outcome (extensionStore.load catalog) session.database with
    | (.ok (workspace, _), after) => ⟨after, workspace, session.done ++ [.load catalog]⟩
    | (.error _, after) => { session with database := after }
  | .add module =>
    match outcome (extensionStore.join session.workspace module) session.database with
    | (.ok _, after) => ⟨after, session.workspace, session.done ++ [.add module]⟩
    | (.error _, after) => { session with database := after }
  | .remove module =>
    match outcome (extensionStore.leave module) session.database with
    | (.ok _, after) => ⟨after, session.workspace, session.done ++ [.remove module]⟩
    | (.error _, after) => { session with database := after }

def performAll (session : ExtensionSession) (calls : List ExtensionCall) : ExtensionSession :=
  calls.foldl perform session

end ExtensionSession

/-! Rows that the program wrote -/

/-- No row tells a time, so none can be unreadable. -/
structure Recorded (rows : Table AddedAt) : Prop where
  ascending : Ascending rows
  recorded : ∀ row ∈ rows, row.2 = .recorded

section

variable {database : Database} {rows : Table AddedAt}

theorem Recorded.nil : Recorded [] := ⟨Ascending.nil, by simp⟩

theorem Recorded.insert (all : Recorded rows) (module : String) :
    Recorded (Ascending.insert module .recorded rows) := by
  refine ⟨Ascending.insert_ascending all.ascending _ _, fun row member => ?_⟩
  rcases Ascending.mem_insert member with rfl | old
  · rfl
  · exact all.recorded row old

theorem Recorded.erase (all : Recorded rows) (module : String) :
    Recorded (Ascending.erase module rows) :=
  ⟨Ascending.erase_ascending all.ascending _,
    fun row member => all.recorded row ((Ascending.erase_sublist module rows).subset member)⟩

theorem Recorded.find? (all : Recorded rows) (module : String) :
    Ascending.find? module rows = if module ∈ rows.map (·.1) then some .recorded else none := by
  split
  next known =>
    obtain ⟨addedAt, found⟩ := (Ascending.mem_keys_iff all.ascending).1 known
    have same := all.recorded _ ((Ascending.find?_eq_some_iff all.ascending _ _).1 found)
    exact found.trans (congrArg some same)
  next unknown =>
    exact Option.eq_none_iff_forall_ne_some.2 fun addedAt found =>
      unknown ((Ascending.mem_keys_iff all.ascending).2 ⟨addedAt, found⟩)

end

namespace ExtensionSession

/-- The list of modules follows from the calls that succeeded, and the workspace from the list at
the last load. -/
structure Follows (session : ExtensionSession) : Prop where
  rows : ∃ rows, session.database.extensions = some rows ∧ Recorded rows ∧
    ∀ module, module ∈ rows.map (·.1) ↔ Stands session.done module
  workspace : ∃ before catalog modules, LoadedLast session.done before catalog ∧
    modules.Pairwise (· < ·) ∧ (∀ module, module ∈ modules ↔ Stands before module) ∧
    session.workspace.Assembled catalog modules

variable {session : ExtensionSession}

theorem Follows.load (follows : session.Follows) (catalog : Catalog) :
    (session.perform (.load catalog)).Follows := by
  obtain ⟨rows, there, all, stands⟩ := follows.rows
  obtain ⟨workspace, loaded, assembled⟩ := load_cases there all.ascending catalog
  simp only [perform, loaded]
  refine ⟨⟨rows, there, all, fun module => ?_⟩, session.done, catalog, rows.map (·.1),
    ⟨[], rfl, by simp⟩, modules_ascending all.ascending, stands, assembled⟩
  simp [stands_concat_iff, stands]

theorem Follows.add (follows : session.Follows) (module : String) :
    (session.perform (.add module)).Follows := by
  obtain ⟨rows, there, all, stands⟩ := follows.rows
  simp only [perform, outcome_join there, all.find?]
  by_cases known : module ∈ rows.map (·.1)
  · simp only [if_pos known]
    exact follows
  · simp only [if_neg known]
    cases session.workspace.contribution module with
    | error error => exact follows
    | ok added =>
      obtain ⟨before, catalog, modules, loaded, others⟩ := follows.workspace
      refine ⟨⟨_, rfl, all.insert module, fun other => ?_⟩, before, catalog, modules,
        loaded.concat (by simp), others⟩
      rw [Ascending.mem_keys_insert, stands_concat_iff, stands]
      simp [eq_comm]

theorem Follows.remove (follows : session.Follows) (module : String) :
    (session.perform (.remove module)).Follows := by
  obtain ⟨rows, there, all, stands⟩ := follows.rows
  simp only [perform, outcome_leave there, all.find?]
  by_cases known : module ∈ rows.map (·.1)
  · simp only [if_pos known]
    obtain ⟨before, catalog, modules, loaded, others⟩ := follows.workspace
    refine ⟨⟨_, rfl, all.erase module, fun other => ?_⟩, before, catalog, modules,
      loaded.concat (by simp), others⟩
    rw [Ascending.mem_keys_erase all.ascending, stands_concat_iff, stands]
    simp [eq_comm]
  · simp only [if_neg known]
    exact follows

theorem Follows.perform (follows : session.Follows) (call : ExtensionCall) :
    (session.perform call).Follows := by
  cases call with
  | load catalog => exact follows.load catalog
  | add module => exact follows.add module
  | remove module => exact follows.remove module

theorem Follows.performAll (follows : session.Follows) (calls : List ExtensionCall) :
    (session.performAll calls).Follows := by
  induction calls generalizing session with
  | nil => exact follows
  | cons call rest ih => exact ih (follows.perform call)

end ExtensionSession

/-- From an empty list on, whatever is called: the list holds the modules that stand, in byte order.
A module is added exactly when it does not stand and fits the registry of the last load, and one that
stands is refused for that. It is removed exactly when it stands. A load always succeeds. A call
that fails leaves the database as it was. -/
theorem list_follows_calls {database : Database} (empty : database.extensions = some [])
    (first : Catalog) :
    ∃ workspace, outcome (extensionStore.load first) database = (.ok (workspace, []), database) ∧
      ∀ (calls : List ExtensionCall) (session : ExtensionSession),
        session = ExtensionSession.performAll ⟨database, workspace, [.load first]⟩ calls →
        (∃ modules,
          outcome extensionStore.list session.database = (.ok modules, session.database) ∧
          (modules.map textBytes).Pairwise (· < ·) ∧
          ∀ module, module ∈ modules ↔ Stands session.done module) ∧
        (∃ before catalog modules, LoadedLast session.done before catalog ∧
          modules.Pairwise (· < ·) ∧ (∀ module, module ∈ modules ↔ Stands before module) ∧
          session.workspace.Assembled catalog modules) ∧
        (∀ module manifest built,
          (∃ after, outcome (extensionStore.join session.workspace module) session.database =
            (.ok (manifest, built), after)) ↔
          ¬Stands session.done module ∧
            session.workspace.catalog.find? module = some manifest ∧
            manifest.fit session.workspace.registry = .ok built) ∧
        (∀ module, Stands session.done module →
          outcome (extensionStore.join session.workspace module) session.database =
            (.error (.extensionAlreadyAdded module), session.database)) ∧
        (∀ module,
          (∃ after, outcome (extensionStore.leave module) session.database = (.ok (), after)) ↔
            Stands session.done module) ∧
        (∀ catalog, ∃ next skipped, outcome (extensionStore.load catalog) session.database =
          (.ok (next, skipped), session.database)) ∧
        (∀ module error after,
          outcome (extensionStore.join session.workspace module) session.database =
            (.error error, after) → after = session.database) ∧
        ∀ module error after,
          outcome (extensionStore.leave module) session.database = (.error error, after) →
            after = session.database := by
  obtain ⟨workspace, loaded, assembled⟩ := load_cases empty Ascending.nil first
  refine ⟨workspace, loaded, fun calls session run => ?_⟩
  -- The first load is the only call so far, and it found an empty list.
  have start : (⟨database, workspace, [.load first]⟩ : ExtensionSession).Follows := by
    refine ⟨⟨[], empty, .nil, fun module => ?_⟩, [], first, [], ⟨[], rfl, by simp⟩,
      List.Pairwise.nil, fun module => ?_, assembled⟩
    · simp [Stands, List.cons_eq_append_iff]
    · simp [Stands]
  have follows := start.performAll calls
  rw [← run] at follows
  obtain ⟨rows, there, all, stands⟩ := follows.rows
  -- A module can be added where its row is free, and that is where it does not stand.
  have free (module : String) :
      Ascending.find? module rows = none ↔ ¬Stands session.done module := by
    rw [← stands, all.find?]
    simp
  refine ⟨⟨_, outcome_listExtensions there, ?_, stands⟩, follows.workspace,
    fun module manifest built => ?_, fun module known => ?_, fun module => ?_, fun catalog => ?_,
    fun _ _ _ => join_eq_error there, fun _ _ _ => leave_eq_error there⟩
  · exact List.pairwise_map.2
      ((modules_ascending all.ascending).imp (textBytes_lt_iff _ _).2)
  · simp only [join_eq_ok there, free, exists_and_left, exists_eq, and_true]
  · rw [outcome_join there, all.find?, if_pos ((stands module).2 known)]
    rfl
  · simp only [leave_eq_ok there, exists_and_left, exists_eq, and_true]
    rw [← stands, all.find?]
    simp
  · obtain ⟨next, done, -⟩ := load_cases there all.ascending catalog
    exact ⟨next, _, done⟩

/-- A module is held against the registry of the last load, which does not know a content type that
was added since. -/
theorem stale_registry_refuses : ∃ workspace session,
    outcome (extensionStore.load clipCatalog) Database.empty =
      (.ok (workspace, []), Database.empty) ∧
    session = ExtensionSession.performAll ⟨Database.empty, workspace, [.load clipCatalog]⟩
      [.add "b", .add "a"] ∧
    outcome extensionStore.list session.database = (.ok ["b"], session.database) ∧
    Stands session.done "b" ∧ ¬Stands session.done "a" ∧
    outcome (extensionStore.join session.workspace "b") session.database =
      (.error (.extensionAlreadyAdded "b"), session.database) ∧
    outcome (extensionStore.join session.workspace "a") session.database =
      (.error (.incompatibleSignalType "clip_md5" "clip"), session.database) := by
  have ran : ∃ workspace,
      outcome (extensionStore.load clipCatalog) Database.empty =
        (.ok (workspace, []), Database.empty) ∧
      ExtensionSession.performAll ⟨Database.empty, workspace, [.load clipCatalog]⟩
        [.add "b", .add "a"] = ⟨withClips, workspace, [.load clipCatalog, .add "b"]⟩ ∧
      outcome (extensionStore.join workspace "a") withClips =
        (.error (.incompatibleSignalType "clip_md5" "clip"), withClips) := ⟨_, rfl, rfl, rfl⟩
  obtain ⟨workspace, loaded, run, refused⟩ := ran
  obtain ⟨_, same, each⟩ := @list_follows_calls Database.empty rfl clipCatalog
  cases loaded.symm.trans same
  obtain ⟨⟨modules, listed, -, stands⟩, -, -, again, -⟩ := each [.add "b", .add "a"] _ rfl
  rw [run] at listed stands again
  have lists : outcome extensionStore.list withClips = (.ok ["b"], withClips) := rfl
  cases listed.symm.trans lists
  have added : Stands [.load clipCatalog, .add "b"] "b" := (stands "b").1 (by decide)
  have refusedLater : ¬Stands [.load clipCatalog, .add "b"] "a" :=
    fun stands' => absurd ((stands "a").2 stands') (by decide)
  refine ⟨workspace, _, loaded, rfl, ?_⟩
  rw [run]
  exact ⟨lists, added, refusedLater, again "b" added, refused⟩

end SignalExchange
