import SignalExchange.Proofs.Collab.Construction
import SignalExchange.Proofs.Json.Distinct
import SignalExchange.Proofs.Program.CommandLine
import SignalExchange.Proofs.Program.Reached
import SignalExchange.Proofs.ThreatExchange.Fetch

/-! Importing a privacy group.

An import needs a stored token, an answer that holds the group, and a name that can be used for the
record. Where one of them is missing the run fails, and the database is left alone.
-/

set_option autoImplicit false

namespace SignalExchange

open Call

/-! The record of a group -/

/-- The record for a group that was asked for by its identifier. -/
def Collab.ofGroup (name : String) (id : Int) : Collab where
  name := name
  api := "fb_threatexchange"
  enabled := true
  attributes := .ofList [("app_token_override", .null), ("privacy_group", .integer id)]

namespace CollabStore

def groupEdit (name : String) (id : Int) : EditSet :=
  (EditSet.empty.set "privacy_group" (.integer id)).importedAs name
    Standard.threatExchange.schema.api

theorem newRecord_group (name : String) (id : Int) :
    Collab.newRecord Standard.threatExchange.schema (groupEdit name id) name =
      .ofGroup name id := by
  have own : Collab.ownValues Standard.threatExchange.schema (groupEdit name id) =
    [("privacy_group", .integer id), ("app_token_override", .null)] := rfl
  have below : "app_token_override" < "privacy_group" := by decide
  have sorted : AscendingMap.ofList
      [("privacy_group", Json.integer id), ("app_token_override", .null)] =
        .ofList [("app_token_override", .null), ("privacy_group", .integer id)] := by
    simp [AscendingMap.ofList, Ascending.ofList, Ascending.insert, below, below.ne',
      not_lt_of_gt below]
  rw [Collab.newRecord, own, sorted]
  rfl

theorem construct_group {name : String} (named : name ≠ "") {id : Int}
    (fits : Integer.InRange id) :
    Collab.construct Standard.threatExchange.schema (groupEdit name id) =
      .ok (.ofGroup name id) := by
  have described : Standard.threatExchange.schema.editableFields = .ok _ := rfl
  have keys : ∀ key ∈ ["privacy_group", "name", "enabled", "api"],
      (Standard.threatExchange.schema.find? key).isSome := by decide
  have acceptable :
      Collab.Acceptable Standard.threatExchange.schema (groupEdit name id) name := by
    refine ⟨fun key member => Option.isSome_iff_exists.1 (keys key member), rfl, named, ?_, ?_⟩
    · rintro value ⟨⟩
      rfl
    · simp [Standard.threatExchange, Schema.ofFields, commonFields, groupEdit, EditSet.importedAs,
        EditSet.get?, EditSet.set, EditSet.empty, EditSet.assign, EditSet.lookup,
        FieldType.Accepts, FieldType.check, fits]
  rw [← newRecord_group]
  exact Collab.construct_of_acceptable described acceptable rfl

end CollabStore

namespace Database

variable {database : Database} {rows : Table CollabRow}

/-- The database has one more record, and nothing else is changed. -/
def Gains (database : Database) (collab : Collab) (after : Database) : Prop :=
  ∃ rows more, database.collabs = some rows ∧ more.Perm ((collab.name, collab.row) :: rows) ∧
    after = { database with collabs := some more }

theorem gains_withRecord (there : database.collabs = some rows) {collab : Collab}
    (free : Ascending.find? collab.name rows = none) :
    database.Gains collab (database.withRecord rows collab) :=
  ⟨rows, _, there, Ascending.insert_perm_of_free free _, rfl⟩

theorem outcome_find_of_free (there : database.collabs = some rows) {name : String}
    (free : Ascending.find? name rows = none) :
    outcome (collabStore.find? name) database = (.ok none, database) := by
  change outcome (findCollab name) database = _
  rw [findCollab, outcome_bind, outcome_collabRows_of_some there]
  simp [free]

theorem importAs_cases (titled : database.Titled) (name : String) {id : Int}
    (fits : Integer.InRange id) :
    (name ≠ "" ∧ database.rows (.collabs, name) = none ∧ ∃ after,
      database.Gains (.ofGroup name id) after ∧
      outcome (collabStore.importAs name Standard.threatExchange.schema
        (EditSet.empty.set "privacy_group" (.integer id))) database =
        (.ok (.ofGroup name id), after)) ∨
    (¬(name ≠ "" ∧ database.rows (.collabs, name) = none) ∧ ∃ error,
      outcome (collabStore.importAs name Standard.threatExchange.schema
        (EditSet.empty.set "privacy_group" (.integer id))) database =
        (.error error, database)) := by
  obtain ⟨rows, result, there, search, sought⟩ := titled.sought name
  have taken : database.rows (.collabs, name) = none ↔ Ascending.find? name rows = none := by
    simp [Database.rows, rowIn, there]
  rw [taken, CollabStore.importAs, outcome_bind, outcome_onStore]
  by_cases free : Ascending.find? name rows = none
  -- Nothing stands under the name. The rules for new records refuse it only where it is empty.
  · rw [outcome_find_of_free there free]
    by_cases named : name = ""
    · refine .inr ⟨fun usable => usable.1 named, ?_⟩
      subst named
      exact ⟨_, rfl⟩
    · have free : Ascending.find? (Collab.ofGroup name id).name rows = none := free
      refine .inl ⟨named, free, _, gains_withRecord there free, ?_⟩
      change outcome (do return (← collabStore.createNew Standard.threatExchange.schema
        (CollabStore.groupEdit name id)).collab) database = _
      rw [outcome_bind, CollabStore.createNew, outcome_bind, outcome_ofExcept,
        CollabStore.construct_group named fits]
      simp [outcome_create_of_free there free, Outcome.collab]
  · refine .inr ⟨fun usable => free usable.2, ?_⟩
    rw [search]
    cases sought with
    | absent free' => exact absurd free' free
    | damaged message => exact ⟨_, rfl⟩
    | found _ _ _ => exact ⟨_, rfl⟩

/-- The token that is read from the settings. -/
def StoresToken (database : Database) (token : String) : Prop :=
  (outcome (getSetting .string tokenKey) database).1 = .ok (some token)

end Database

theorem Matches.exists_all?_of_integer? {found : Matches} {id : String} {n : Int}
    (first : found.integer? id = some n) :
    ∃ values, found.all? id = some values ∧ Json.integer n ∈ values := by
  unfold integer? at first
  split at first
  next m isFirst =>
    cases first
    obtain ⟨values, all, head⟩ := Option.bind_eq_some_iff.1 isFirst
    exact ⟨values, all, List.mem_of_mem_head? head⟩
  next => cases first

namespace CommandTree

open Command

/-- The argument that asks for a group. -/
def importGroup : Argument := threatExchange.arguments[1]

theorem inRange_of_gives {n : Int} (gives : importGroup.Gives (.integer n)) :
    Integer.InRange n := by
  rcases gives with ⟨⟨⟩, -⟩ | ⟨word, read⟩
  obtain ⟨m, reads, same⟩ := Except.map_eq_ok.1 read
  cases same
  exact Integer.inRange_of_read (Except.mapError_eq_ok.1 reads)

theorem alone_of_takes {words : List String} {session : Session} {workspace : Workspace}
    {surfaces : List Surface} {found : Matches}
    (takes : Program.Takes words session workspace surfaces found)
    (path : found.path = ["config", "api", "fb_threatexchange"]) {argument : Argument}
    (own : argument ∈ threatExchange.arguments)
    (given : (found.innermost.all? argument.id).isSome) {id : String}
    (among : id ∈ [listGroupsId, importGroupId, tokenId]) (differs : id ≠ argument.id) :
    found.innermost.all? id = none := by
  obtain ⟨inner, _, last, leads, -, closed⟩ := closed_of_reads (reads_of_parse takes.parsed)
  rw [path] at leads
  have leads : some (threatExchange.inheriting inherited) = some inner := leads
  cases leads
  have each : ∀ argument ∈ threatExchange.arguments,
      (threatExchange.inheriting inherited).byId? argument.id = some argument ∧
      threatExchange.groups[0] ∈ (threatExchange.inheriting inherited).groupsOf argument.id := by
    decide
  obtain ⟨known, grouped⟩ := each argument own
  refine (held_of_group closed known grouped among differs).resolve_left fun absent => ?_
  have absent : found.innermost.all? argument.id = none := absent
  rw [absent] at given
  cases given

theorem importing_of_takes {words : List String} {session : Session} {workspace : Workspace}
    {surfaces : List Surface} {found : Matches}
    (takes : Program.Takes words session workspace surfaces found)
    (path : found.path = ["config", "api", "fb_threatexchange"]) {id : Int}
    (asks : found.innermost.integer? importGroupId = some id) :
    found.innermost.isOn listGroupsId = false ∧ Integer.InRange id := by
  obtain ⟨values, held, given⟩ := Matches.exists_all?_of_integer? asks
  constructor
  · have absent := alone_of_takes takes path (by decide : importGroup ∈ threatExchange.arguments)
      (Option.isSome_of_eq_some held) (by decide : listGroupsId ∈ _) (by decide)
    exact congrArg Option.isSome absent
  · obtain ⟨inner, own, last, leads, proceeds, closed⟩ :=
      closed_of_reads (reads_of_parse takes.parsed)
    rw [path] at leads
    have leads : some (threatExchange.inheriting inherited) = some inner := leads
    cases leads
    obtain ⟨argument, member, same, gives⟩ :=
      (holds_of_close proceeds closed held).brought _ given
    have only : ∀ argument ∈ (threatExchange.inheriting inherited).allArguments,
        argument.id = importGroupId → argument = importGroup := by decide
    rw [only argument member same] at gives
    exact inRange_of_gives gives

end CommandTree

theorem ProgramError.exitCode_ne_zero (error : ProgramError) : error.exitCode ≠ 0 := by
  cases error with
  | config error =>
    rw [exitCode, ConfigError.exitCode]
    split <;> decide
  | store error => exact Nat.one_ne_zero
  | system fault => exact Nat.one_ne_zero
  | noHome => exact Nat.one_ne_zero

namespace Program

open CommandM Database

/-- The address below which a run looks for groups. -/
def baseUrl (environment : Environment) : String :=
  (((environment.lookup? "SIGEX_TE_BASE_URL").filter (· ≠ "")).map
    Client.withoutEndSlashes).getD Client.defaultBaseUrl

def groupAddress (environment : Environment) (id : Int) : String :=
  baseUrl environment ++ "/" ++ String.ofList (Integer.text id)

variable {environment : Environment}

/-- The server that the base names answers for every group, unless white space ends the base. -/
theorem answers_groupAddress {server : Server} (answers : server.Answers (baseUrl environment))
    (ends : ∀ c ∈ (baseUrl environment).toList.getLast?, 32 < c.toNat) (id : Int) :
    server.Answers (groupAddress environment id) := by
  refine answers.below ends fun c member => ?_
  rw [String.toList_ofList] at member
  rcases Json.mem_integerText c member with rfl | digit
  · decide
  · simp only [isDigit, Bool.and_eq_true, decide_eq_true_eq, Char.le_def, UInt32.le_iff_toNat_le]
      at digit
    exact Nat.lt_of_lt_of_le (by decide) digit.1

theorem client_cases (environment : Environment) (session : Session) :
    (∃ token, session.database.StoresToken token ∧ isBlankText token = false ∧
      outcome (client environment) session = (.ok ⟨token, baseUrl environment⟩, session)) ∨
    ((∀ token, session.database.StoresToken token → isBlankText token = true) ∧
      ∃ error, outcome (client environment) session = (.error error, session)) := by
  have kept : (outcome (getSetting .string tokenKey) session.database).2 = session.database := by
    rw [outcome_getSetting]
  unfold StoresToken
  rw [client, outcome_bind, outcome_onDatabase, kept]
  cases (outcome (getSetting .string tokenKey) session.database).1 with
  | error error => exact .inr ⟨nofun, _, rfl⟩
  | ok stored =>
    dsimp only [Except.mapError_ok]
    cases stored with
    | none => exact .inr ⟨nofun, _, rfl⟩
    | some token =>
      rw [outcome_pure?, Option.getD_some, Client.create]
      cases blank : isBlankText token with
      | true =>
        refine .inr ⟨?_, _, rfl⟩
        rintro token ⟨⟩
        exact blank
      | false => exact .inl ⟨token, rfl, blank, rfl⟩

/-- What an import needs: a stored token that is not blank, a first response that holds the group,
and a name of the group that is not empty and that no record has. -/
structure Importable (database : Database) (server : Server) (token : String)
    (group : PrivacyGroup) : Prop where
  stored : database.StoresToken token
  visible : isBlankText token = false
  answered : ∃ code body, server.responses.head? = some (.answer code body) ∧
    Client.isSuccess code = true ∧ PrivacyGroup.read (Client.bodyText body) = .ok group
  named : group.name ≠ ""
  free : database.rows (.collabs, group.name) = none

theorem Importable.unique {database : Database} {server : Server} {token other : String}
    {group second : PrivacyGroup} (first : Importable database server token group)
    (last : Importable database server other second) : token = other ∧ group = second := by
  have tokens := first.stored.symm.trans last.stored
  have groups := (Server.value_next_eq_ok.2 first.answered).symm.trans
    (Server.value_next_eq_ok.2 last.answered)
  cases tokens
  cases groups
  exact ⟨rfl, rfl⟩

theorem importGroup_cases {database : Database} {server : Server} {workspace : Workspace} {id : Int}
    {registered : RegisteredExchange} (titled : database.Titled) (fits : Integer.InRange id)
    (answers : server.Answers (groupAddress environment id))
    (there : workspace.exchanges.find? Standard.threatExchange.name = some registered)
    (own : registered.schema = Standard.threatExchange.schema) :
    (∃ token group, Importable database server token group ∧ ∃ request after,
      (Client.mk token (baseUrl environment)).Asks server.answersAt (groupAddress environment id)
        Client.groupFields request ∧
      database.Gains (.ofGroup group.name id) after ∧
      outcome (importGroup environment workspace id) ⟨database, server⟩ =
        (.ok "", ⟨after, server.asked request⟩)) ∨
    (¬∃ token group, Importable database server token group) ∧ ∃ error server',
      outcome (importGroup environment workspace id) ⟨database, server⟩ =
        (.error error, ⟨database, server'⟩) := by
  rw [importGroup, outcome_bind]
  -- What the import needs is looked for in this order: the token, the answer, and a name that is
  -- free. Each of them is missing in one of the cases that fail.
  rcases client_cases environment ⟨database, server⟩ with
    ⟨token, stored, visible, made⟩ | ⟨blank, error, failed⟩
  · obtain ⟨request, asked⟩ :=
      Client.request?_of_answers ⟨token, baseUrl environment⟩ answers Client.groupFields
    rw [made]
    dsimp only
    rw [outcome_bind, outcome_onServer, Client.outcome_privacyGroup _ asked]
    cases held : server.next.value PrivacyGroup.read with
    | error error =>
      refine .inr ⟨?_, _, _, rfl⟩
      rintro ⟨token, group, importable⟩
      rw [Server.value_next_eq_ok.2 importable.answered] at held
      cases held
    | ok group =>
      dsimp only [Except.mapError_ok]
      rw [there]
      dsimp only
      rw [outcome_bind, config, outcome_onDatabase, own]
      rcases importAs_cases titled group.name fits with
        ⟨named, free, after, gains, imported⟩ | ⟨unusable, error, failed⟩
      · rw [imported]
        have answered := Server.value_next_eq_ok.1 held
        exact .inl ⟨token, group, ⟨stored, visible, answered, named, free⟩, request, after,
          Client.asks_iff.2 asked, gains, rfl⟩
      · rw [failed]
        refine .inr ⟨?_, _, _, rfl⟩
        rintro ⟨token, other, importable⟩
        -- The response holds one group only, so no other group can have a name that is free.
        have same := Server.value_next_eq_ok.2 importable.answered
        rw [held] at same
        cases same
        exact unusable ⟨importable.named, importable.free⟩
  · rw [failed]
    refine .inr ⟨?_, error, server, rfl⟩
    rintro ⟨token, group, importable⟩
    have := blank token importable.stored
    rw [importable.visible] at this
    cases this

theorem threatExchange_of_takes {words : List String} {session : Session} {workspace : Workspace}
    {surfaces : List Surface} {found : Matches}
    (takes : Takes words session workspace surfaces found) : ∃ registered,
      workspace.exchanges.find? Standard.threatExchange.name = some registered ∧
      registered.schema = Standard.threatExchange.schema := by
  obtain ⟨added, -, built⟩ := takes.exchanges
  have member : Standard.threatExchange ∈ workspace.exchanges.exchanges := by
    rw [ExchangeMapping.exchanges_of_build built]
    exact List.mem_append_left _ List.mem_cons_self
  obtain ⟨registered, inMapping, same⟩ := List.mem_map.1 member
  have found := ExchangeMapping.find?_of_build built inMapping
  rw [RegisteredExchange.name, same] at found
  exact ⟨registered, found, by rw [RegisteredExchange.schema, same]⟩

/-- Where the address of the group names the server, a run that imports the group succeeds exactly
when everything that the import needs is there. It then makes one request, for that address, and
adds the one record of the group. A run that fails leaves the database as it was. -/
theorem import_of_matched {environment : Environment} {database : Database} {server : Server}
    {words : List String} {found : Matches} {id : Int} (reached : Reached database)
    (accepted : (outcome (matched words) ⟨database, server⟩).1 = .ok (.ok found))
    (path : found.path = ["config", "api", "fb_threatexchange"])
    (asks : found.innermost.integer? CommandTree.importGroupId = some id)
    (answers : server.Answers (groupAddress environment id)) :
    ((runOn environment words ⟨database, server⟩).1.exitCode = 0 ↔
      ∃ token group, Importable database server token group) ∧
    (∀ token group, Importable database server token group → ∃ request after,
      (Client.mk token (baseUrl environment)).Asks server.answersAt (groupAddress environment id)
        Client.groupFields request ∧
      database.Gains (.ofGroup group.name id) after ∧
      runOn environment words ⟨database, server⟩ =
        (.printed "", ⟨after, server.asked request⟩)) ∧
    ((runOn environment words ⟨database, server⟩).1.exitCode ≠ 0 →
      (runOn environment words ⟨database, server⟩).2.database = database) := by
  obtain ⟨workspace, surfaces, takes⟩ := takes_of_matched accepted
  obtain ⟨alone, fits⟩ := CommandTree.importing_of_takes takes path asks
  obtain ⟨registered, there, own⟩ := threatExchange_of_takes takes
  have ran := runOn_of_takes takes environment
  -- The words lead to the import of the group, and the ending of the run is that of the import.
  have handled : apiCommand environment workspace
      (.mk [] (some ("fb_threatexchange", found.innermost))) =
      importGroup environment workspace id := by
    change threatExchangeCommand environment workspace found.innermost = _
    simp [threatExchangeCommand, alone, asks]
  rw [respond_api path, outcome_map, handled] at ran
  rcases importGroup_cases reached.titled fits answers there own with
    ⟨token, group, importable, request, after, asked, gains, imported⟩ |
    ⟨missing, error, left, failed⟩
  · rw [imported] at ran
    have ran : runOn environment words ⟨database, server⟩ =
      (.printed "", ⟨after, server.asked request⟩) := ran
    rw [ran]
    refine ⟨iff_of_true rfl ⟨token, group, importable⟩, ?_, fun failed => absurd rfl failed⟩
    intro token' group' importable'
    obtain ⟨rfl, rfl⟩ := importable.unique importable'
    exact ⟨request, after, asked, gains, rfl⟩
  · rw [failed] at ran
    have ran : runOn environment words ⟨database, server⟩ = (.failed error, ⟨database, left⟩) := ran
    rw [ran]
    refine ⟨iff_of_false error.exitCode_ne_zero missing, ?_, fun _ => rfl⟩
    exact fun token group importable => absurd ⟨token, group, importable⟩ missing

def testHome : Environment :=
  { freshHome with lookup? := fun name =>
      if name = "SIGEX_TE_BASE_URL" then some "http://oracle.test" else freshHome.lookup? name }

def storeToken : List String := ["config", "api", "fb_threatexchange", "--api-token", "1|a"]

def importSeven : List String := ["config", "api", "fb_threatexchange", "-I", "7"]

def tokenStored : Database := { Database.empty with settings := some [(tokenKey, "\"1|a\"")] }

def oneGroup : Server where
  answersAt := (· = "http://oracle.test")
  responses := [.answer 200 "\x7b\"id\":\"8\",\"name\":\"g\"\x7d"]
  requests := []

/-- The record has the identifier that was asked for, whatever the answer says. -/
theorem import_seven : ∃ found after,
    (outcome (matched importSeven) ⟨tokenStored, oneGroup⟩).1 = .ok (.ok found) ∧
    found.innermost.integer? CommandTree.importGroupId = some 7 ∧
    tokenStored.Gains (.ofGroup "g" 7) after ∧
    runOn testHome importSeven ⟨tokenStored, oneGroup⟩ = (.printed "", ⟨after, oneGroup.asked
      ⟨"http://oracle.test", "/7",
        some "fields=id%2Cname%2Cdescription%2Cthreat_updates_enabled&access_token=1%7Ca"⟩⟩) := by
  have reached : Reached tokenStored := .run .start testHome storeToken .unreachable
  obtain ⟨found, accepted, path, asks⟩ : ∃ found,
      (outcome (matched importSeven) ⟨tokenStored, oneGroup⟩).1 = .ok (.ok found) ∧
      found.path = ["config", "api", "fb_threatexchange"] ∧
      found.innermost.integer? CommandTree.importGroupId = some 7 := ⟨_, rfl, rfl, rfl⟩
  have base : baseUrl testHome = "http://oracle.test" := rfl
  have answers : oneGroup.Answers (groupAddress testHome 7) := by
    refine answers_groupAddress ⟨⟨"http://oracle.test", "/", none⟩, by decide +kernel, by decide⟩ ?_ 7
    rw [base]
    rintro c ⟨⟩
    decide
  have importable : Importable tokenStored oneGroup "1|a" ⟨8, "g", "", false⟩ :=
    ⟨rfl, rfl, ⟨_, _, rfl, rfl, rfl⟩, by decide, rfl⟩
  obtain ⟨-, imports, -⟩ := import_of_matched reached accepted path asks answers
  obtain ⟨request, after, asked, gains, ran⟩ := imports _ _ importable
  have computed : (Client.mk "1|a" (baseUrl testHome)).request? oneGroup.answersAt
      (groupAddress testHome 7) Client.groupFields = some ⟨"http://oracle.test", "/7",
        some "fields=id%2Cname%2Cdescription%2Cthreat_updates_enabled&access_token=1%7Ca"⟩ := by
    decide +kernel
  cases (Client.asks_iff.1 asked).symm.trans computed
  exact ⟨found, after, accepted, asks, gains, ran⟩

end Program

end SignalExchange
