import Mathlib.Logic.Relation
import SignalExchange.Proofs.Database.SettingTable
import SignalExchange.Proofs.Program.CommandLine
import SignalExchange.Proofs.Registry.Known

/-! Databases that runs of the program lead to.

All that a run can write is a record by the rules for records, a row of the extensions, or one of
the two settings. So whatever holds of a new database and is kept by each of these writes holds of
every database, whatever the runs do and however they end.
-/

set_option autoImplicit false

namespace SignalExchange

open Call

/-! Calls that leave everything alone -/

namespace Database

variable {kind : Database → Prop}

theorem maintains_extensionRows : Maintains kind extensionRows := by
  intro database holds
  rw [show extensionRows = (do rowsOf extensionTable (← get).extensions) from rfl,
    outcome_tableRows extensionTable Database.extensions]
  exact holds

theorem maintains_listExtensions : Maintains kind listExtensions := maintains_extensionRows.map _

theorem maintains_load (catalog : Catalog) : Maintains kind (extensionStore.load catalog) :=
  maintains_listExtensions.onStore.bind fun _ => .ofExcept _

theorem maintains_hasExtension (module : String) : Maintains kind (hasExtension module) := by
  refine Maintains.map (maintains_extensionRows.bind fun rows => ?_) _
  split
  · exact .pure _
  · exact (Maintains.ofExcept _).bind fun _ => .pure _

theorem maintains_getSetting {α : Type} (shape : SettingShape α) (key : String) :
    Maintains kind (getSetting shape key) := by
  intro database holds
  rw [outcome_getSetting]
  exact holds

theorem maintains_listAll : Maintains kind collabStore.listAll := by
  refine Maintains.onStore fun database holds => ?_
  change kind (outcome listCollabs database).2
  rw [listCollabs, outcome_bind, show collabRows = (do rowsOf collabTable (← get).collabs) from rfl,
    outcome_tableRows collabTable Database.collabs]
  cases database.collabs with
  | none => exact holds
  | some rows =>
    dsimp only
    rw [outcome_ofExcept]
    exact holds

end Database

namespace Program

open CommandM Database

/-! What a run writes -/

/-- What a run can write to its database. A token is written only when the run was given it, and
only when it can be an app token. -/
inductive Writes (given : Option String) (database : Database) : Database → Prop where
  | applied {exchange : Exchange} (known : exchange ∈ Registry.known) (edit : ResolvedEdit) :
      Writes given database (outcome (collabStore.apply exchange.schema edit) database).2
  | imported (name : String) (fields : EditSet) :
      Writes given database
        (outcome (collabStore.importAs name Standard.threatExchange.schema fields) database).2
  | removed (name : String) :
      Writes given database (outcome (collabStore.remove name) database).2
  | added {rows : Table AddedAt} (there : database.extensions = some rows) (module : String) :
      Writes given database
        { database with extensions := some (Ascending.insert module .recorded rows) }
  | dropped {rows : Table AddedAt} (there : database.extensions = some rows) (module : String) :
      Writes given database { database with extensions := some (Ascending.erase module rows) }
  | credentials {rows : Table String} (there : database.settings = some rows) (value : Json) :
      Writes given database
        { database with settings := some (Ascending.insert credentialsKey value.text rows) }
  | token {rows : Table String} (there : database.settings = some rows) {token : String}
      (isGiven : given = some token) (valid : isAppToken token = true) :
      Writes given database
        { database with
          settings := some (Ascending.insert tokenKey (Json.string token).text rows) }

/-- What the matched words give to the command for privacy groups, if they name it. -/
def GroupArguments.api (found : Matches) : Option Matches :=
  match found.subcommand with
  | some ("fb_threatexchange", inner) => some inner
  | _ => none

def GroupArguments.config (found : Matches) : Option Matches :=
  match found.subcommand with
  | some ("api", inner) => api inner
  | _ => none

def GroupArguments.words (found : Except ArgumentFault Matches) : Option Matches :=
  match found with
  | .ok found => found.subcommand.bind fun (_, inner) => config inner
  | .error _ => none

/-- What the words give to the command for privacy groups on the command line of the database. -/
def groupArguments (words : List String) (session : Session) : Option Matches :=
  match (outcome (matched words) session).1 with
  | .ok found => GroupArguments.words found
  | .error _ => none

/-- The token that the words give. -/
def tokenGiven (words : List String) (session : Session) : Option String :=
  (groupArguments words session).bind (·.text? CommandTree.tokenId)

end Program

/-- The database of the session came from the first one by such writes. -/
def Session.From (given : Option String) (first : Database) (session : Session) : Prop :=
  Relation.ReflTransGen (Program.Writes given) first session.database

namespace CommandM

variable {given : Option String} {first : Database} {α ε : Type}

theorem from_onDatabase {lift : ε → ProgramError} {action : ExceptT ε (StateM Database) α}
    (maintains : Maintains (Relation.ReflTransGen (Program.Writes given) first) action) :
    Maintains (Session.From given first) (onDatabase lift action) := by
  intro session reached
  rw [outcome_onDatabase]
  exact maintains session.database reached

theorem from_onServer (action : RequestM α) :
    Maintains (Session.From given first) (onServer action) := by
  intro session reached
  rw [outcome_onServer]
  exact reached

theorem from_pure? (result : Except ConfigError α) :
    Maintains (Session.From given first) (pure? result) := .ofExcept _

end CommandM

namespace Program

open CommandM Database

variable {given : Option String} {first : Database}

/-! What the commands write -/

theorem from_write {ε α : Type} {action : ExceptT ε (StateM Database) α}
    (writes : ∀ database, Writes given database (outcome action database).2) :
    Maintains (Relation.ReflTransGen (Writes given) first) action :=
  fun database reached => reached.tail (writes database)

theorem from_extensionRows {α : Type} {next : Table AddedAt → DatabaseM α}
    (rest : ∀ database rows, database.extensions = some rows →
      Relation.ReflTransGen (Writes given) database (outcome (next rows) database).2) :
    Maintains (Relation.ReflTransGen (Writes given) first) (extensionRows >>= next) := by
  intro database reached
  refine reached.trans ?_
  rw [outcome_bind, show extensionRows = (do rowsOf extensionTable (← get).extensions) from rfl,
    outcome_tableRows extensionTable Database.extensions]
  cases there : database.extensions with
  | none => exact .refl
  | some rows => exact rest database rows there

theorem from_addExtension (module : String) :
    Maintains (Relation.ReflTransGen (Writes given) first) (addExtension module) := by
  refine from_extensionRows fun database rows there => ?_
  split
  · exact .refl
  · exact .single (.added there module)

theorem from_removeExtension (module : String) :
    Maintains (Relation.ReflTransGen (Writes given) first) (removeExtension module) := by
  refine from_extensionRows fun database rows there => ?_
  split
  · exact .refl
  · exact .single (.dropped there module)

theorem from_credentials (value : Json) :
    Maintains (Relation.ReflTransGen (Writes given) first) (setSetting credentialsKey value) := by
  intro database reached
  rw [outcome_setSetting]
  cases there : database.settings with
  | none => exact reached
  | some rows => exact reached.tail (.credentials there value)

theorem from_token {token : String} (isGiven : given = some token)
    (valid : isAppToken token = true) :
    Maintains (Relation.ReflTransGen (Writes given) first)
      (setSetting tokenKey (.string token)) := by
  intro database reached
  rw [outcome_setSetting]
  cases there : database.settings with
  | none => exact reached
  | some rows => exact reached.tail (.token there isGiven valid)

theorem extensionStore_from :
    ExtensionStore.Related (fun α (program _ : ExceptT ConfigError (StateM Database) α) =>
      Maintains (Relation.ReflTransGen (Writes given) first) program)
      extensionStore extensionStore :=
  ⟨fun module => (maintains_hasExtension module).onStore,
    fun module => (from_addExtension module).onStore,
    fun module => (from_removeExtension module).onStore⟩

variable (environment : Environment) {workspace : Workspace} (surfaces : List Surface)

theorem from_listCollabs : Maintains (Session.From given first) listCollabs :=
  (from_onDatabase maintains_listAll).map _

theorem from_deleteCollab (name : String) :
    Maintains (Session.From given first) (deleteCollab name) :=
  (from_onDatabase (from_write fun _ => .removed name)).bind fun _ => .pure _

theorem from_client : Maintains (Session.From given first) (client environment) :=
  (from_onDatabase (maintains_getSetting _ _)).bind fun _ => from_pure? _

theorem from_setToken {token : String} (isGiven : given = some token) :
    Maintains (Session.From given first) (setToken token) := by
  unfold setToken
  split
  · exact .throw _
  next valid =>
    have valid : isAppToken token = true := by simpa using valid
    exact (from_onDatabase (from_token isGiven valid)).bind fun _ => .pure _

theorem from_ncmecCommand (found : Matches) :
    Maintains (Session.From given first) (ncmecCommand found) := by
  unfold ncmecCommand
  split
  · exact (from_onDatabase (from_credentials _)).bind fun _ => .pure _
  · exact .pure _

theorem from_extensionsCommand (found : Matches) :
    Maintains (Session.From given first) (extensionsCommand workspace found) := by
  have lists : Maintains (Session.From given first) (listExtensions workspace) :=
    (from_onDatabase maintains_listExtensions).bind fun _ => .pure _
  unfold extensionsCommand
  split
  · exact (from_onDatabase (extensionStore_from.join maintains_congruence _ _)).bind
      fun _ => .pure _
  · exact (from_onDatabase (extensionStore_from.leave maintains_congruence _)).bind
      fun _ => .pure _
  · split
    · exact (from_pure? _).bind fun _ => .pure _
    · exact lists
  · exact lists

section

variable (known : ∀ exchange ∈ workspace.exchanges.exchanges, exchange ∈ Registry.known)

include known

theorem from_editCollab (api : String) (found : Matches) :
    Maintains (Session.From given first) (editCollab workspace surfaces api found) := by
  unfold editCollab
  split
  next registered there =>
    have member := known registered.exchange
      (List.mem_map_of_mem (List.mem_of_find?_eq_some there))
    split
    · refine (from_pure? _).bind fun args => (from_pure? _).bind fun resolved => ?_
      exact (from_onDatabase (from_write fun _ => .applied member resolved)).bind fun _ => .pure _
    · exact .throw _
  · exact .throw _

theorem from_collabCommand (found : Matches) :
    Maintains (Session.From given first) (collabCommand workspace surfaces found) := by
  unfold collabCommand
  split
  · split
    · exact from_editCollab surfaces known _ _
    · exact .throw _
  · exact from_deleteCollab _
  · exact from_listCollabs

theorem from_importGroup (id : Int) :
    Maintains (Session.From given first) (importGroup environment workspace id) := by
  refine (from_client environment).bind fun client => ?_
  refine (from_onServer (client.privacyGroup id)).bind fun group => ?_
  dsimp only
  split
  next registered there =>
    have own := Registry.schema_of_threatExchange known there
    rw [own]
    exact (from_onDatabase (from_write fun _ => .imported _ _)).bind fun _ => .pure _
  · exact .throw _

theorem from_threatExchangeCommand (found : Matches)
    (gives : ∀ token, found.text? CommandTree.tokenId = some token → given = some token) :
    Maintains (Session.From given first) (threatExchangeCommand environment workspace found) := by
  unfold threatExchangeCommand
  split
  · exact (from_client environment).bind fun client =>
      (from_onServer client.privacyGroups).bind fun _ => .pure _
  · split
    · exact from_importGroup environment known _
    next token _ isGiven => exact from_setToken (gives token isGiven)
    · exact .pure _

theorem from_apiCommand (found : Matches)
    (gives : given = (GroupArguments.api found).bind (·.text? CommandTree.tokenId)) :
    Maintains (Session.From given first) (apiCommand environment workspace found) := by
  unfold apiCommand
  split
  next inner chosen =>
    refine from_threatExchangeCommand environment known inner fun token isGiven => ?_
    rw [gives, GroupArguments.api, chosen]
    exact isGiven
  · exact from_ncmecCommand _
  · exact .pure _

theorem from_configCommand (found : Matches)
    (gives : given = (GroupArguments.config found).bind (·.text? CommandTree.tokenId)) :
    Maintains (Session.From given first)
      (configCommand environment workspace surfaces found) := by
  unfold configCommand
  split
  · exact .pure _
  · exact .pure _
  next inner chosen =>
    refine from_apiCommand environment known inner ?_
    rw [gives, GroupArguments.config, chosen]
    rfl
  · exact from_extensionsCommand _
  · exact from_collabCommand surfaces known _
  · exact from_listCollabs

theorem from_respond (found : Except ArgumentFault Matches)
    (gives : given = (GroupArguments.words found).bind (·.text? CommandTree.tokenId)) :
    Maintains (Session.From given first) (respond environment workspace surfaces found) := by
  -- Only the command of the configuration writes; a fault, help and the version leave all as it is.
  unfold respond
  split
  · exact .pure _
  · exact .pure _
  · exact .pure _
  · split
    next matches' name inner chosen =>
      refine (from_configCommand environment surfaces known inner ?_).bind fun _ => .pure _
      rw [gives, GroupArguments.words, chosen]
      rfl
    · exact .pure _

end

theorem writes_of_run (words : List String) (session : Session) :
    Relation.ReflTransGen (Writes (tokenGiven words session)) session.database
      (runOn environment words session).2.database := by
  have same : (runOn environment words session).2 =
      (outcome (perform environment words) session).2 := by
    unfold runOn outcome
    generalize (perform environment words).run.run session = ran
    obtain ⟨result, after⟩ := ran
    cases result <;> rfl
  rw [same, perform_eq, tokenGiven, groupArguments, matched]
  -- The run and the question which token it is given start with the same load.
  simp only [outcome_bind, config, outcome_onDatabase, outcome_pure?]
  rcases load : outcome (extensionStore.load .standard) session.database with ⟨result, after⟩
  cases result with
  | error error =>
    have reads : Maintains (fun other => other = session.database)
      (extensionStore.load .standard) := maintains_load .standard
    have same := reads session.database rfl
    rw [load] at same
    dsimp only at same
    subst same
    exact .refl
  | ok loaded =>
    obtain ⟨workspace, skipped⟩ := loaded
    obtain ⟨rfl, added, standard, built⟩ := load_standard load
    have known := Registry.known_of_build standard built
    dsimp only [Except.mapError_ok]
    cases workspace.exchanges.surfaces with
    | error error => exact .refl
    | ok surfaces =>
      dsimp only [Except.mapError_ok]
      cases CommandTree.withSurfaces surfaces with
      | error error => exact .refl
      | ok command => exact from_respond environment surfaces known _ rfl session .refl

theorem kept_by_run {kind : Database → Prop} (environment : Environment) {words : List String}
    {session : Session}
    (writes : ∀ database after, kind database → Writes (tokenGiven words session) database after →
      kind after) (holds : kind session.database) :
    kind (runOn environment words session).2.database := by
  have steps := writes_of_run environment words session
  generalize (runOn environment words session).2.database = last at steps ⊢
  induction steps with
  | refl => exact holds
  | tail _ write ih => exact writes _ _ ih write

/-- The databases that any runs lead to from a new one, each of them with any server. -/
inductive Reached : Database → Prop where
  | start : Reached Database.empty
  | run {database : Database} (before : Reached database) (environment : Environment)
      (words : List String) (server : Server) :
      Reached (runOn environment words ⟨database, server⟩).2.database

/-- What a run at home and without a server leaves. -/
def afterRun (database : Database) (words : List String) : Database :=
  (runOn freshHome words ⟨database, .unreachable⟩).2.database

theorem Reached.afterRun {database : Database} (reached : Reached database)
    (words : List String) : Reached (afterRun database words) :=
  .run reached freshHome words .unreachable

theorem Reached.of_writes {kind : Database → Prop} (start : kind Database.empty)
    (writes : ∀ given database after, kind database → Writes given database after → kind after)
    {database : Database} (reached : Reached database) : kind database := by
  induction reached with
  | start => exact start
  | run _ environment words server ih => exact kept_by_run environment (writes _) ih

theorem titled_of_writes {given : Option String} {database after : Database}
    (titled : database.Titled) (writes : Writes given database after) : after.Titled := by
  cases writes with
  | applied _ edit =>
    exact collabStore_maintains.related.apply maintains_congruence _ edit database titled
  | imported name fields =>
    exact collabStore_maintains.related.importAs maintains_congruence name _ fields database titled
  | removed name =>
    exact collabStore_maintains.related.remove maintains_congruence name database titled
  | added | dropped | credentials | token => exact titled

theorem Reached.titled {database : Database} (reached : Reached database) : database.Titled :=
  reached.of_writes ⟨[], rfl, .nil, by simp⟩ fun _ _ _ => titled_of_writes

end Program

end SignalExchange
