import SignalExchange.Proofs.Database.Interleaved
import SignalExchange.Proofs.Program.MissingToken
import SignalExchange.Proofs.ThreatExchange.Token

/-! The token of an application, from the run that stores it on.

A token is accepted only in a form that is not blank, and no write of a run but that of a token
touches it. So the runs that need a token have this one, until another is stored.
-/

set_option autoImplicit false

namespace SignalExchange

open Call

namespace Database

variable {database after : Database} {token : String}

theorem storesToken_iff : database.StoresToken token ↔
    ∃ text, database.rows (.settings, tokenKey) = some (.setting text) ∧
      Json.readWith (SettingShape.string Json.nestingLimit) text = .ok token := by
  rw [StoresToken, outcome_getSetting]
  simp only [rows, rowIn]
  cases database.settings with
  | none => simp
  | some entries =>
    simp only [Option.bind_some]
    cases Ascending.find? tokenKey entries with
    | none => simp
    | some text =>
      cases read : Json.readWith (SettingShape.string Json.nestingLimit) text <;> simp [read]

theorem StoresToken.of_row (stores : database.StoresToken token)
    (same : after.rows (.settings, tokenKey) = database.rows (.settings, tokenKey)) :
    after.StoresToken token := by
  rw [storesToken_iff, same]
  exact storesToken_iff.1 stores

theorem storesToken_of_set (database : Database) (rows : Table String) (token : String) :
    StoresToken { database with
      settings := some (Ascending.insert tokenKey (Json.string token).text rows) } token := by
  rw [storesToken_iff]
  exact ⟨(Json.string token).text, by simp [Database.rows, rowIn],
    Json.readWith_of_readsBack (Json.readsBack_stringValue token)⟩

theorem StoresToken.of_writes (stores : database.StoresToken token)
    (writes : Program.Writes none database after) : after.StoresToken token := by
  refine stores.of_row ?_
  have settings (same : after.settings = database.settings) :
      after.rows (.settings, tokenKey) = database.rows (.settings, tokenKey) := by
    simp only [rows, same]
  cases writes with
  | applied _ edit => exact settings ((RowCall.applyEdit _ edit).settings_after database)
  | imported name fields =>
    exact settings ((RowCall.importAs name _ fields).settings_after database)
  | removed name => exact settings ((RowCall.removeCollab name).settings_after database)
  | added => exact settings rfl
  | dropped => exact settings rfl
  | credentials there value =>
    have differs : tokenKey ≠ credentialsKey := by decide
    simp only [rows, rowIn_insert_of_ne differs, there]
  | token _ isGiven => cases isGiven

end Database

/-! What the words give to the command for privacy groups -/

namespace Program

open CommandM Database

variable {words : List String} {session : Session} {inner : Matches} {token : String}

theorem GroupArguments.api_eq_some {found : Matches} : GroupArguments.api found = some inner ↔
    found.subcommand = some ("fb_threatexchange", inner) := by
  unfold GroupArguments.api
  split
  next other chosen => simp [chosen]
  next others =>
    refine iff_of_false nofun fun chosen => others inner chosen

theorem GroupArguments.config_eq_some {found : Matches} :
    GroupArguments.config found = some inner ↔
      ∃ api, found.subcommand = some ("api", api) ∧
        api.subcommand = some ("fb_threatexchange", inner) := by
  unfold GroupArguments.config
  split
  next api chosen => simp [chosen, GroupArguments.api_eq_some]
  next others =>
    refine iff_of_false nofun ?_
    rintro ⟨api, chosen, -⟩
    exact others api chosen

theorem takes_of_groupArguments (given : groupArguments words session = some inner) :
    ∃ workspace surfaces found, Takes words session workspace surfaces found ∧
      found.path = ["config", "api", "fb_threatexchange"] ∧ found.innermost = inner := by
  unfold groupArguments at given
  split at given
  next result accepted =>
    cases result with
    | error fault => cases given
    | ok found =>
      obtain ⟨workspace, surfaces, takes⟩ := takes_of_matched accepted
      obtain ⟨last, _, _, leads, -⟩ :=
        Command.closed_of_reads (Command.reads_of_parse takes.parsed)
      obtain ⟨⟨name, config⟩, chosen, given⟩ := Option.bind_eq_some_iff.1 given
      obtain ⟨api, chosenApi, chosenInner⟩ := GroupArguments.config_eq_some.1 given
      obtain ⟨values, sub⟩ := found
      obtain ⟨configValues, configSub⟩ := config
      obtain ⟨apiValues, apiSub⟩ := api
      cases chosen
      cases chosenApi
      cases chosenInner
      obtain ⟨sub, named, leads⟩ := Option.bind_eq_some_iff.1 leads
      -- The program has one command, and the one for privacy groups has none below it.
      obtain rfl : sub = CommandTree.config surfaces :=
        List.mem_singleton.1 (List.mem_of_find?_eq_some named)
      obtain rfl := Command.subcommand?_name named
      have leads : Command.descend inner.path
        (CommandTree.threatExchange.inheriting CommandTree.inherited) = some last := leads
      obtain ⟨innerValues, innerSub⟩ := inner
      cases innerSub with
      | none => exact ⟨workspace, surfaces, _, takes, rfl, rfl⟩
      | some below => cases leads
  next => cases given

/-- How a command ends the run. -/
def ended : Except ProgramError String × Session → Ending × Session
  | (.ok text, session) => (.printed text, session)
  | (.error error, session) => (.failed error, session)

theorem runOn_of_path {workspace : Workspace} {surfaces : List Surface} {found : Matches}
    (takes : Takes words session workspace surfaces found)
    (path : found.path = ["config", "api", "fb_threatexchange"]) (environment : Environment) :
    runOn environment words session =
      ended (outcome (threatExchangeCommand environment workspace found.innermost) session) := by
  have ran := runOn_of_takes takes environment
  have handled : apiCommand environment workspace
      (.mk [] (some ("fb_threatexchange", found.innermost))) =
    threatExchangeCommand environment workspace found.innermost := rfl
  rw [respond_api path, outcome_map, handled] at ran
  rw [ran]
  generalize outcome (threatExchangeCommand environment workspace found.innermost) session = done
  obtain ⟨result, after⟩ := done
  cases result <;> rfl

theorem ok_of_ended {ran : Except ProgramError String × Session}
    (succeeds : (ended ran).1.exitCode = 0) : ∃ text, ran = (.ok text, (ended ran).2) := by
  obtain ⟨result, after⟩ := ran
  cases result with
  | ok text => exact ⟨text, rfl⟩
  | error error => exact absurd succeeds error.exitCode_ne_zero

theorem setToken_eq_ok {text : String} {after : Session}
    (done : outcome (setToken token) session = (.ok text, after)) : isAppToken token = true ∧
      ∃ rows, session.database.settings = some rows ∧
        after.database = { session.database with
          settings := some (Ascending.insert tokenKey (Json.string token).text rows) } := by
  cases valid : isAppToken token with
  | false =>
    rw [setToken, valid] at done
    cases done
  | true =>
    simp only [setToken, valid, Bool.not_true, Bool.false_eq_true, if_false, outcome_bind,
      outcome_onDatabase, outcome_setSetting] at done
    cases there : session.database.settings with
    | none =>
      rw [there] at done
      cases done
    | some rows =>
      rw [there] at done
      cases done
      exact ⟨rfl, rows, rfl, rfl⟩

theorem command_of_token {workspace : Workspace} {surfaces : List Surface} {found : Matches}
    (takes : Takes words session workspace surfaces found)
    (path : found.path = ["config", "api", "fb_threatexchange"])
    (text : found.innermost.text? CommandTree.tokenId = some token) (environment : Environment) :
    threatExchangeCommand environment workspace found.innermost = setToken token := by
  have there : (found.innermost.all? CommandTree.tokenId).isSome := by
    cases all : found.innermost.all? CommandTree.tokenId with
    | none => simp [Matches.text?, Matches.first?, all] at text
    | some values => rfl
  have alone (id : String)
      (among : id ∈ [CommandTree.listGroupsId, CommandTree.importGroupId, CommandTree.tokenId])
      (differs : id ≠ CommandTree.tokenId) : found.innermost.all? id = none :=
    CommandTree.alone_of_takes takes path
      (by decide : CommandTree.threatExchange.arguments[2] ∈ CommandTree.threatExchange.arguments)
      there among differs
  have noListing := alone CommandTree.listGroupsId (by decide) (by decide)
  have noImport := alone CommandTree.importGroupId (by decide) (by decide)
  simp [threatExchangeCommand, Matches.isOn, Matches.integer?, Matches.first?, noListing, noImport,
    text]

theorem stores_of_run {environment : Environment} (given : tokenGiven words session = some token)
    (succeeds : (runOn environment words session).1.exitCode = 0) :
    isAppToken token = true ∧ (runOn environment words session).2.database.StoresToken token := by
  obtain ⟨inner, arguments, text⟩ := Option.bind_eq_some_iff.1 given
  obtain ⟨workspace, surfaces, found, takes, path, rfl⟩ := takes_of_groupArguments arguments
  rw [runOn_of_path takes path, command_of_token takes path text] at succeeds ⊢
  obtain ⟨_, done⟩ := ok_of_ended succeeds
  obtain ⟨valid, rows, -, after⟩ := setToken_eq_ok done
  rw [after]
  exact ⟨valid, storesToken_of_set session.database rows token⟩

/-- Runs from a database on, none of which stores a token: it is given none, or it fails. -/
inductive Since (first : Database) : Database → Prop where
  | start : Since first first
  | run {database : Database} (before : Since first database) (environment : Environment)
      (words : List String) (server : Server)
      (spared : tokenGiven words ⟨database, server⟩ = none ∨
        (runOn environment words ⟨database, server⟩).1.exitCode ≠ 0) :
      Since first (runOn environment words ⟨database, server⟩).2.database

theorem Since.storesToken {first database : Database} (since : Since first database)
    (stores : first.StoresToken token) : database.StoresToken token := by
  induction since with
  | start => exact stores
  | @run database _ environment words server spared ih =>
    rcases spared with none | failed
    · have kept : ∀ other after, StoresToken other token →
          Writes (tokenGiven words ⟨database, server⟩) other after → StoresToken after token := by
        rw [none]
        exact fun _ _ => StoresToken.of_writes
      exact kept_by_run environment kept ih
    · have rows := (runOn_rows environment words ⟨database, server⟩).resolve_right
        fun changed => failed changed.2.1
      exact ih.of_row (congrFun rows _)

/-! Runs that need the token -/

variable {database : Database} {environment : Environment}

theorem outcome_client_of_stores (stores : database.StoresToken token)
    (visible : isBlankText token = false) (environment : Environment) (server : Server) :
    outcome (client environment) ⟨database, server⟩ =
      (.ok ⟨token, baseUrl environment⟩, ⟨database, server⟩) := by
  rcases client_cases environment ⟨database, server⟩ with
    ⟨other, stored, -, made⟩ | ⟨blank, -⟩
  · have same : Except.ok (some other) = Except.ok (some token) := stored.symm.trans stores
    cases same
    exact made
  · rw [blank token stores] at visible
    cases visible

theorem ended_ne_failed {action : CommandM String} {error : ProgramError}
    (never : NeverThrows error action) (session : Session) :
    (ended (outcome action session)).1 ≠ .failed error := by
  have here := never session
  generalize outcome action session = ran at here ⊢
  obtain ⟨result, after⟩ := ran
  cases result with
  | ok text => rintro ⟨⟩
  | error other => exact fun same => here (congrArg Except.error (Ending.failed.inj same))

theorem server_ended (ran : Except ProgramError String × Session) :
    (ended ran).2.server = ran.2.server := by
  obtain ⟨result, after⟩ := ran
  cases result <;> rfl

/-- What comes after the requests leaves the server to them. -/
theorem server_of_onServer {α β : Type} {action : RequestM α} {next : α → CommandM β}
    (rest : ∀ value server,
      Maintains (fun session : Session => session.server = server) (next value))
    (session : Session) : (outcome (onServer action >>= next) session).2.server =
      (outcome action session.server).2 := by
  rw [outcome_bind, outcome_onServer]
  generalize outcome action session.server = ran
  obtain ⟨result, after⟩ := ran
  cases result with
  | error error => rfl
  | ok value => exact rest value after _ rfl

theorem onDatabase_maintains_server {ε α : Type} (lift : ε → ProgramError)
    (action : ExceptT ε (StateM Database) α) (server : Server) :
    Maintains (fun session : Session => session.server = server) (onDatabase lift action) := by
  intro session same
  rw [outcome_onDatabase]
  exact same

/-- The run builds a client with the token, makes its requests with this client, and does not fail
for want of a token. -/
structure UsesToken (token : String) (environment : Environment) (words : List String)
    (session : Session) (inner : Matches) : Prop where
  client : outcome (client environment) session = (.ok ⟨token, baseUrl environment⟩, session)
  lists : inner.isOn CommandTree.listGroupsId = true →
    (runOn environment words session).2.server =
      (outcome (Client.mk token (baseUrl environment)).privacyGroups session.server).2
  imports : ∀ id, inner.integer? CommandTree.importGroupId = some id →
    (runOn environment words session).2.server =
      (outcome ((Client.mk token (baseUrl environment)).privacyGroup id) session.server).2
  ends : (runOn environment words session).1 ≠ .failed (.config (remoteError .missingToken))

theorem usesToken_of_listing (stores : database.StoresToken token)
    (visible : isBlankText token = false) {server : Server}
    (given : groupArguments words ⟨database, server⟩ = some inner)
    (asks : inner.isOn CommandTree.listGroupsId = true) :
    UsesToken token environment words ⟨database, server⟩ inner := by
  obtain ⟨workspace, surfaces, found, takes, path, rfl⟩ := takes_of_groupArguments given
  have made := outcome_client_of_stores stores visible environment server
  have command : threatExchangeCommand environment workspace found.innermost =
      listGroups environment := by
    simp [threatExchangeCommand, asks]
  have ran := runOn_of_path takes path environment
  rw [command, listGroups, outcome_bind, made] at ran
  refine ⟨made, fun _ => ?_, fun id also => ?_, ?_⟩
  · rw [ran, server_ended]
    exact server_of_onServer (fun _ _ => .pure _) _
  · rw [(CommandTree.importing_of_takes takes path also).1] at asks
    cases asks
  · rw [ran]
    have never := (Client.mk token (baseUrl environment)).privacyGroups_neverThrows
    exact ended_ne_failed ((onServer_neverThrows never).bind fun _ => .pure _) _

theorem usesToken_of_import (stores : database.StoresToken token)
    (visible : isBlankText token = false) {server : Server}
    (given : groupArguments words ⟨database, server⟩ = some inner) {id : Int}
    (asks : inner.integer? CommandTree.importGroupId = some id) :
    UsesToken token environment words ⟨database, server⟩ inner := by
  obtain ⟨workspace, surfaces, found, takes, path, rfl⟩ := takes_of_groupArguments given
  obtain ⟨alone, fits⟩ := CommandTree.importing_of_takes takes path asks
  obtain ⟨registered, there, own⟩ := threatExchange_of_takes takes
  have made := outcome_client_of_stores stores visible environment server
  have command : threatExchangeCommand environment workspace found.innermost =
      importGroup environment workspace id := by
    simp [threatExchangeCommand, alone, asks]
  have ran := runOn_of_path takes path environment
  rw [command, importGroup, outcome_bind, made] at ran
  simp only [there, own] at ran
  -- The words do not ask for a listing too, and after the client no step looks for a token.
  refine ⟨made, fun lists => ?_, fun other also => ?_, ?_⟩
  · rw [alone] at lists
    cases lists
  · cases asks.symm.trans also
    rw [ran, server_ended]
    exact server_of_onServer
      (fun _ _ => (onDatabase_maintains_server _ _ _).bind fun _ => .pure _) _
  · rw [ran]
    have never : NeverThrows .missingToken
        ((Client.mk token (baseUrl environment)).privacyGroup id) :=
      Client.fetch_neverThrows _ _ _ _
    exact ended_ne_failed ((onServer_neverThrows never).bind fun group =>
      (config_neverThrows (importAs_neverThrows group.name fits)).bind fun _ => .pure _) _

/-- The form of a token is exact. Once a run has stored a token, and until another run stores one,
every listing and every import has a client with this token. -/
theorem token_lasts :
    (∀ token, isAppToken token = true ↔ ∃ application secret,
      token.toList = application ++ '|' :: secret ∧ IsToken application secret) ∧
    ∀ {environment words session token}, tokenGiven words session = some token →
      (runOn environment words session).1.exitCode = 0 →
      ∀ {database}, Since (runOn environment words session).2.database database →
      ∀ {later others server inner}, groupArguments others ⟨database, server⟩ = some inner →
        (inner.isOn CommandTree.listGroupsId = true ∨
          ∃ id, inner.integer? CommandTree.importGroupId = some id) →
        UsesToken token later others ⟨database, server⟩ inner := by
  refine ⟨fun _ => isAppToken_iff, ?_⟩
  intro environment words session token isGiven succeeds database since later others server inner
    given asks
  obtain ⟨valid, stored⟩ := stores_of_run isGiven succeeds
  have stores := since.storesToken stored
  have visible := isBlankText_of_isAppToken valid
  rcases asks with lists | ⟨id, imports⟩
  · exact usesToken_of_listing stores visible given lists
  · exact usesToken_of_import stores visible given imports

/-- A token that cannot be one. -/
def storeNoToken : List String := ["config", "api", "fb_threatexchange", "--api-token", "1|"]

/-- The runs between are one that fails to store another token and one that stores credentials. -/
theorem import_uses_token : ∃ database inner,
    Since (afterRun Database.empty storeToken) database ∧
    groupArguments importSeven ⟨database, oneGroup⟩ = some inner ∧
    UsesToken "1|a" testHome importSeven ⟨database, oneGroup⟩ inner := by
  have isGiven : tokenGiven storeToken freshSession = some "1|a" := rfl
  have succeeds : (runOn freshHome storeToken freshSession).1.exitCode = 0 := by decide +kernel
  have refused : Since (afterRun Database.empty storeToken)
      (afterRun (afterRun Database.empty storeToken) storeNoToken) :=
    .run .start freshHome _ _ (.inr (by decide +kernel))
  have since : Since (afterRun Database.empty storeToken)
      (afterRun (afterRun (afterRun Database.empty storeToken) storeNoToken) storeCredentials) :=
    .run refused freshHome _ _ (.inl rfl)
  obtain ⟨inner, given, asks⟩ : ∃ inner, groupArguments importSeven
      ⟨afterRun (afterRun (afterRun Database.empty storeToken) storeNoToken) storeCredentials,
        oneGroup⟩ = some inner ∧
      inner.integer? CommandTree.importGroupId = some 7 := ⟨_, rfl, rfl⟩
  exact ⟨_, inner, since, given, token_lasts.2 isGiven succeeds since given (.inr ⟨7, asks⟩)⟩

end Program

end SignalExchange
