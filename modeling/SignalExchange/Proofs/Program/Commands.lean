import SignalExchange.Program.Run
import SignalExchange.Proofs.Database.Rows

/-! The commands write one row at most, and nothing is left to fail behind the write.

The rules for records and extensions write once whatever keeps them, as long as each call of the
store does.
-/

set_option autoImplicit false

namespace SignalExchange

open Call

section
variable {σ κ ρ : Type} (rows : σ → κ → ρ)

structure CollabStore.Orderly (store : CollabStore (StateM σ)) : Prop where
  find? : ∀ name, Reads rows (store.find? name)
  list : Reads rows store.list
  create : ∀ collab, WritesOnce rows (store.create collab)
  update : ∀ collab, WritesOnce rows (store.update collab)
  delete : ∀ collab, Attempts rows (store.delete collab)

structure ExtensionStore.Orderly (store : ExtensionStore (StateM σ)) : Prop where
  list : Reads rows store.list
  contains : ∀ module, Reads rows (store.contains module)
  add : ∀ module, Attempts rows (store.add module)
  remove : ∀ module, Attempts rows (store.remove module)

end

namespace CollabStore.Orderly

variable {σ κ ρ : Type} {rows : σ → κ → ρ} {store : CollabStore (StateM σ)}

theorem listAll (orderly : store.Orderly rows) : Reads rows store.listAll := orderly.list.onStore

theorem createNew (orderly : store.Orderly rows) (schema : Schema) (edit : EditSet) :
    WritesOnce rows (store.createNew schema edit) :=
  (Reads.ofExcept _).before fun collab => (orderly.create collab).onStore.map _

theorem updateExisting (orderly : store.Orderly rows) (schema : Schema) (existing : Collab)
    (edit : EditSet) : WritesOnce rows (store.updateExisting schema existing edit) := by
  unfold CollabStore.updateExisting
  split
  · exact WritesOnce.throw _
  · exact (Reads.ofExcept _).before fun collab => (orderly.update collab).onStore.map _

theorem apply (orderly : store.Orderly rows) (schema : Schema) (edit : ResolvedEdit) :
    WritesOnce rows (store.apply schema edit) := by
  refine (orderly.find? edit.identifier).onStore.before fun found => ?_
  cases found with
  | none =>
    cases edit.create with
    | true => exact orderly.createNew schema edit.edit
    | false => exact WritesOnce.throw _
  | some existing =>
    cases edit.create with
    | true => exact WritesOnce.throw _
    | false => exact orderly.updateExisting schema existing edit.edit

theorem importAs (orderly : store.Orderly rows) (name : String) (schema : Schema)
    (fields : EditSet) : WritesOnce rows (store.importAs name schema fields) := by
  refine (orderly.find? name).onStore.before fun found => ?_
  cases found with
  | none => exact (orderly.createNew schema _).map _
  | some existing => exact WritesOnce.throw _

theorem remove (orderly : store.Orderly rows) (name : String) :
    WritesOnce rows (store.remove name) := by
  refine (orderly.find? name).onStore.before fun found => ?_
  cases found with
  | none => exact WritesOnce.throw _
  | some existing =>
    -- That a record was found before does not tell that there is one to delete.
    exact (orderly.delete existing).onStore.orThrow existing _

end CollabStore.Orderly

namespace ExtensionStore.Orderly

variable {σ κ ρ : Type} {rows : σ → κ → ρ} {store : ExtensionStore (StateM σ)}

theorem load (orderly : store.Orderly rows) (catalog : Catalog) :
    Reads rows (store.load catalog) := orderly.list.onStore.bind fun _ => .ofExcept _

theorem join (orderly : store.Orderly rows) (workspace : Workspace) (module : String) :
    WritesOnce rows (store.join workspace module) := by
  refine (orderly.contains module).onStore.before fun there => ?_
  split
  · exact WritesOnce.throw _
  · refine (Reads.ofExcept _).before fun manifest => ?_
    refine (Reads.ofExcept _).before fun built => ?_
    exact (orderly.add module).onStore.orThrow (manifest, built) _

theorem leave (orderly : store.Orderly rows) (module : String) :
    WritesOnce rows (store.leave module) := (orderly.remove module).onStore.orThrow () _

end ExtensionStore.Orderly

namespace Database

theorem collabStore_orderly : collabStore.Orderly rows :=
  ⟨reads_findCollab, reads_listCollabs, writes_createCollab, writes_updateCollab,
    attempts_deleteCollab⟩

theorem extensionStore_orderly : extensionStore.Orderly rows :=
  ⟨reads_listExtensions, reads_hasExtension, attempts_addExtension, attempts_removeExtension⟩

end Database

/-- The rows of the database that a command works on. -/
def Session.rows (session : Session) : TableName × String → Option Row := session.database.rows

namespace CommandM

variable {ε α : Type}

theorem outcome_onDatabase (lift : ε → ProgramError) (action : ExceptT ε (StateM Database) α)
    (session : Session) :
    outcome (onDatabase lift action) session =
      ((outcome action session.database).1.mapError lift,
        { session with database := (outcome action session.database).2 }) := by
  rcases ran : outcome action session.database with ⟨result, after⟩
  unfold outcome at ran
  rw [onDatabase, outcome_bind]
  simp only [outcome_get, ran, outcome_bind, outcome_set, outcome_ofExcept]

theorem outcome_onServer (action : RequestM α) (session : Session) :
    outcome (onServer action) session =
      (((outcome action session.server).1.mapError remoteError).mapError .config,
        { session with server := (outcome action session.server).2 }) := by
  rcases ran : outcome action session.server with ⟨result, after⟩
  unfold outcome at ran
  rw [onServer, outcome_bind]
  simp only [outcome_get, ran, outcome_bind, outcome_set, pure?, outcome_ofExcept]

theorem reads_onDatabase {lift : ε → ProgramError} {action : ExceptT ε (StateM Database) α}
    (reads : Reads Database.rows action) : Reads Session.rows (onDatabase lift action) := by
  intro session
  rw [outcome_onDatabase]
  exact reads session.database

theorem writes_onDatabase {lift : ε → ProgramError} {action : ExceptT ε (StateM Database) α}
    (writes : WritesOnce Database.rows action) :
    WritesOnce Session.rows (onDatabase lift action) := by
  intro session
  have here := writes session.database
  unfold WritesOnceFrom at here ⊢
  rw [outcome_onDatabase]
  generalize outcome action session.database = ran at here ⊢
  obtain ⟨result, after⟩ := ran
  cases result <;> exact here

theorem reads_onServer (action : RequestM α) : Reads Session.rows (onServer action) := by
  intro session
  rw [outcome_onServer]
  rfl

theorem reads_pure? (result : Except ConfigError α) : Reads Session.rows (pure? result) :=
  .ofExcept _

end CommandM

namespace Program

open CommandM

variable (environment : Environment) (workspace : Workspace) (surfaces : List Surface)

/-! Listings -/

theorem reads_listCollabs : Reads Session.rows listCollabs :=
  (reads_onDatabase Database.collabStore_orderly.listAll).map _

theorem reads_client : Reads Session.rows (client environment) :=
  (reads_onDatabase (Database.reads_getSetting _ _)).bind fun _ => reads_pure? _

theorem reads_listGroups : Reads Session.rows (listGroups environment) :=
  (reads_client environment).bind fun client => (reads_onServer client.privacyGroups).map _

theorem reads_listExtensions : Reads Session.rows (listExtensions workspace) :=
  (reads_onDatabase Database.reads_listExtensions).map _

theorem reads_showExtension (module : String) :
    Reads Session.rows (showExtension workspace module) := (reads_pure? _).map _

theorem reads_shownExtensions (found : Matches) :
    Reads Session.rows (match found.text? CommandTree.moduleId with
      | some module => showExtension workspace module
      | none => listExtensions workspace) := by
  cases found.text? CommandTree.moduleId with
  | some module => exact reads_showExtension workspace module
  | none => exact reads_listExtensions workspace

/-! Changes -/

theorem writes_editCollab (api : String) (found : Matches) :
    WritesOnce Session.rows (editCollab workspace surfaces api found) := by
  unfold editCollab
  split
  · split
    · refine (reads_pure? _).before fun args => ?_
      refine (reads_pure? _).before fun resolved => ?_
      exact (writes_onDatabase (Database.collabStore_orderly.apply _ resolved)).map _
    · exact .throw _
  · exact .throw _

theorem writes_deleteCollab (name : String) : WritesOnce Session.rows (deleteCollab name) :=
  (writes_onDatabase (Database.collabStore_orderly.remove name)).map _

theorem writes_importGroup (id : Int) :
    WritesOnce Session.rows (importGroup environment workspace id) := by
  refine (reads_client environment).before fun client => ?_
  refine (reads_onServer (client.privacyGroup id)).before fun group => ?_
  dsimp only
  split
  · exact (writes_onDatabase (Database.collabStore_orderly.importAs _ _ _)).map _
  · exact .throw _

theorem writes_setToken (token : String) : WritesOnce Session.rows (setToken token) := by
  unfold setToken
  split
  · exact .throw _
  · exact (writes_onDatabase (Database.writes_setSetting _ _)).map _

theorem writes_ncmecCommand (found : Matches) : WritesOnce Session.rows (ncmecCommand found) := by
  unfold ncmecCommand
  split
  · exact (writes_onDatabase (Database.writes_setSetting _ _)).map _
  · exact (Reads.pure _).writes

/-! Choosing a command -/

theorem writes_collabCommand (found : Matches) :
    WritesOnce Session.rows (collabCommand workspace surfaces found) := by
  unfold collabCommand
  split
  · split
    · exact writes_editCollab _ _ _ _
    · exact .throw _
  · exact writes_deleteCollab _
  · exact reads_listCollabs.writes

theorem writes_threatExchangeCommand (found : Matches) :
    WritesOnce Session.rows (threatExchangeCommand environment workspace found) := by
  unfold threatExchangeCommand
  split
  · exact (reads_listGroups environment).writes
  · split
    · exact writes_importGroup _ _ _
    · exact writes_setToken _
    · exact (Reads.pure _).writes

theorem writes_apiCommand (found : Matches) :
    WritesOnce Session.rows (apiCommand environment workspace found) := by
  unfold apiCommand
  split
  · exact writes_threatExchangeCommand _ _ _
  · exact writes_ncmecCommand _
  · exact (Reads.pure _).writes

theorem writes_extensionsCommand (found : Matches) :
    WritesOnce Session.rows (extensionsCommand workspace found) := by
  unfold extensionsCommand
  split
  · exact (writes_onDatabase (Database.extensionStore_orderly.join _ _)).map _
  · exact (writes_onDatabase (Database.extensionStore_orderly.leave _)).map _
  · exact (reads_shownExtensions _ _).writes
  · exact (reads_listExtensions _).writes

theorem writes_configCommand (found : Matches) :
    WritesOnce Session.rows (configCommand environment workspace surfaces found) := by
  unfold configCommand
  split
  · exact (Reads.pure _).writes
  · exact (Reads.pure _).writes
  · exact writes_apiCommand _ _ _
  · exact writes_extensionsCommand _ _
  · exact writes_collabCommand _ _ _
  · exact reads_listCollabs.writes

/-! Commands that only show something -/

namespace Shows

def collab (found : Matches) : Bool :=
  match found.subcommand with
  | none | some ("list", _) => true
  | _ => false

/-- The question for the groups of ThreatExchange shows them. -/
def api (found : Matches) : Bool :=
  match found.subcommand with
  | none => true
  | some ("fb_threatexchange", inner) => inner.isOn CommandTree.listGroupsId
  | _ => false

def extensions (found : Matches) : Bool :=
  match found.subcommand with
  | some ("list", _) => true
  | _ => false

def config (found : Matches) : Bool :=
  match found.subcommand with
  | some ("signal", _) => true
  | some ("content", _) => true
  | some ("collab", inner) => collab inner
  | some ("api", inner) => api inner
  | some ("extensions", inner) => extensions inner
  | _ => false

end Shows

variable {found : Matches}

theorem reads_collabCommand (showing : Shows.collab found = true) :
    Reads Session.rows (collabCommand workspace surfaces found) := by
  unfold Shows.collab at showing
  unfold collabCommand
  split at showing
  next bare =>
    rw [bare]
    exact reads_listCollabs
  next list =>
    rw [list]
    exact reads_listCollabs
  next => cases showing

theorem reads_apiCommand (showing : Shows.api found = true) :
    Reads Session.rows (apiCommand environment workspace found) := by
  unfold Shows.api at showing
  unfold apiCommand
  split at showing
  next bare =>
    rw [bare]
    exact .pure _
  next chosen there =>
    rw [there]
    simp only [threatExchangeCommand, showing]
    exact reads_listGroups environment
  next => cases showing

theorem reads_extensionsCommand (showing : Shows.extensions found = true) :
    Reads Session.rows (extensionsCommand workspace found) := by
  unfold Shows.extensions at showing
  unfold extensionsCommand
  split at showing
  next chosen list =>
    rw [list]
    exact reads_shownExtensions workspace chosen
  next => cases showing

theorem reads_configCommand (showing : Shows.config found = true) :
    Reads Session.rows (configCommand environment workspace surfaces found) := by
  unfold Shows.config at showing
  unfold configCommand
  split at showing
  next signal =>
    rw [signal]
    exact .pure _
  next content =>
    rw [content]
    exact .pure _
  next inner collab =>
    rw [collab]
    exact reads_collabCommand _ _ showing
  next inner api =>
    rw [api]
    exact reads_apiCommand _ _ showing
  next inner extensions =>
    rw [extensions]
    exact reads_extensionsCommand _ showing
  next => cases showing

end Program

end SignalExchange
