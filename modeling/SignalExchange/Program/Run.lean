import SignalExchange.Collab.Rules
import SignalExchange.Database.CollabTable
import SignalExchange.Database.ExtensionTable
import SignalExchange.Database.SettingTable
import SignalExchange.Program.CommandTree
import SignalExchange.Program.DataDirectory
import SignalExchange.Program.Listing
import SignalExchange.ThreatExchange.Token

/-! Running a command line.

A command reads and writes one database and may send requests. It either prints something or
ends with an error.
-/

set_option autoImplicit false

namespace SignalExchange

structure Session where
  database : Database
  server : Server

abbrev CommandM := ExceptT ProgramError (StateM Session)

namespace CommandM

def onDatabase {ε α : Type} (lift : ε → ProgramError)
    (action : ExceptT ε (StateM Database) α) : CommandM α := do
  let session ← get
  let (result, database) := action.run.run session.database
  set { session with database := database }
  MonadExcept.ofExcept (result.mapError lift)

def config {α : Type} : ExceptT ConfigError (StateM Database) α → CommandM α :=
  onDatabase .config

def store {α : Type} : DatabaseM α → CommandM α := onDatabase .store

def pure? {α : Type} (result : Except ConfigError α) : CommandM α :=
  MonadExcept.ofExcept (result.mapError .config)

/-- A missing token is for the user to mend. -/
def remoteError : RemoteError → ConfigError
  | .missingToken => .userInput RemoteError.missingToken.message
  | error => .remote error.message

def onServer {α : Type} (action : RequestM α) : CommandM α := do
  let session ← get
  let (result, server) := action.run.run session.server
  set { session with server := server }
  pure? (result.mapError remoteError)

end CommandM

namespace Program

open CommandM

/-! The commands -/

def listCollabs : CommandM String := do
  return Listing.collabs (← config Database.collabStore.listAll)

/-- Everything about an edit command is checked before the store is asked for the record. -/
def editCollab (workspace : Workspace) (surfaces : List Surface) (api : String)
    (found : Matches) : CommandM String := do
  let some registered := workspace.exchanges.find? api
    | throw (.config (.internal s!"no api named {api}"))
  let some surface := surfaces.find? fun surface => surface.api = api
    | throw (.config (.internal s!"no edit surface for {api}"))
  let args ← pure? (surface.editArgs found)
  let resolved ← pure? (args.resolve api surface.fields)
  let _ ← config (Database.collabStore.apply registered.schema resolved)
  return ""

def deleteCollab (name : String) : CommandM String := do
  let _ ← config (Database.collabStore.remove name)
  return ""

def collabCommand (workspace : Workspace) (surfaces : List Surface) (found : Matches) :
    CommandM String :=
  match found.subcommand with
  | some ("edit", inner) =>
    match inner.subcommand with
    | some (api, chosen) => editCollab workspace surfaces api chosen
    | none => throw (.config (.internal "edit was parsed without an api subcommand"))
  | some ("delete", inner) => deleteCollab ((inner.text? "collab_name").getD "")
  | _ => listCollabs

def client (environment : Environment) : CommandM Client := do
  let token ← onDatabase (fun error => .config (.storage error))
    (Database.getSetting .string tokenKey)
  let baseUrl := (environment.lookup? "SIGEX_TE_BASE_URL").filter (· ≠ "")
  pure? ((Client.create (token.getD "") baseUrl).mapError remoteError)

def listGroups (environment : Environment) : CommandM String := do
  let client ← client environment
  return Listing.groups (← onServer client.privacyGroups)

/-- The name of the record is that of the group. -/
def importGroup (environment : Environment) (workspace : Workspace) (id : Int) :
    CommandM String := do
  let client ← client environment
  let group ← onServer (client.privacyGroup id)
  let name := Standard.threatExchange.name
  let some registered := workspace.exchanges.find? name
    | throw (.config (.internal s!"{name} is not registered"))
  let fields := EditSet.empty.set "privacy_group" (.integer id)
  let _ ← config (Database.collabStore.importAs group.name registered.schema fields)
  return ""

def setToken (token : String) : CommandM String := do
  if !isAppToken token then
    throw (.config (.invalidValue "api_token"
      "expected an app token of the form <app id>|<secret>"))
  onDatabase (fun error => .config (.storage error))
    (Database.setSetting tokenKey (.string token))
  return ""

def threatExchangeCommand (environment : Environment) (workspace : Workspace)
    (found : Matches) : CommandM String :=
  if found.isOn CommandTree.listGroupsId then listGroups environment
  else
    match found.integer? CommandTree.importGroupId, found.text? CommandTree.tokenId with
    | some id, _ => importGroup environment workspace id
    | none, some token => setToken token
    | none, none => return ""

/-- Credentials are stored when there is exactly one user and one password. -/
def ncmecCommand (found : Matches) : CommandM String := do
  match found.all? CommandTree.credentialsId with
  | some [user, password] =>
    store (Database.setSetting credentialsKey (.array [user, password]))
    return ""
  | _ => return ""

def apiCommand (environment : Environment) (workspace : Workspace) (found : Matches) :
    CommandM String :=
  match found.subcommand with
  | some ("fb_threatexchange", inner) => threatExchangeCommand environment workspace inner
  | some ("ncmec", inner) => ncmecCommand inner
  | _ => return Listing.exchangeNames workspace.exchanges.names

def listExtensions (workspace : Workspace) : CommandM String := do
  let modules ← store Database.listExtensions
  return String.join (modules.map (Listing.extension workspace.catalog))

def showExtension (workspace : Workspace) (module : String) : CommandM String := do
  return Listing.manifest "" (← pure? (workspace.catalog.load module))

def moduleName (found : Matches) : String := (found.text? CommandTree.moduleId).getD ""

def extensionsCommand (workspace : Workspace) (found : Matches) : CommandM String :=
  match found.subcommand with
  | some ("add", inner) => do
    let added ← config (Database.extensionStore.join workspace (moduleName inner))
    return Listing.manifest "" added.1
  | some ("remove", inner) => do
    config (Database.extensionStore.leave (moduleName inner))
    return ""
  | some (_, inner) =>
    match inner.text? CommandTree.moduleId with
    | some module => showExtension workspace module
    | none => listExtensions workspace
  | none => listExtensions workspace

def configCommand (environment : Environment) (workspace : Workspace)
    (surfaces : List Surface) (found : Matches) : CommandM String :=
  match found.subcommand with
  | some ("signal", _) => return Listing.signalTypes workspace.types.signalTypes
  | some ("content", _) => return Listing.contentTypes workspace.types.contentTypes
  | some ("api", inner) => apiCommand environment workspace inner
  | some ("extensions", inner) => extensionsCommand workspace inner
  | some (_, inner) => collabCommand workspace surfaces inner
  | none => listCollabs

/-! The program -/

def versionText : String := "sigex 0.3.0\n"

inductive Ending where
  | printed (text : String)
  | help
  | badArguments (fault : ArgumentFault)
  | failed (error : ProgramError)

namespace Ending

def exitCode : Ending → Nat
  | printed _ => 0
  | help => 0
  | badArguments fault => fault.exitCode
  | failed error => error.exitCode

end Ending

/-- The whole command line is built before the words are matched, so a registry that does not
allow it fails every command. -/
def perform (environment : Environment) (words : List String) : CommandM Ending := do
  let (workspace, _) ← config (Database.extensionStore.load .standard)
  let surfaces ← pure? workspace.exchanges.surfaces
  let command ← pure? (CommandTree.withSurfaces surfaces)
  match command.parse words with
  | .error .helpShown => return .help
  | .error .versionShown => return .printed versionText
  | .error fault => return .badArguments fault
  | .ok found =>
    match found.subcommand with
    | some (_, inner) =>
      return .printed (← configCommand environment workspace surfaces inner)
    | none => return .badArguments .missingSubcommand

def runOn (environment : Environment) (words : List String) (session : Session) :
    Ending × Session :=
  match (perform environment words).run.run session with
  | (.ok ending, session) => (ending, session)
  | (.error error, session) => (.failed error, session)

def databaseName : String := "sigex.db"

def databaseText (directory : String) : String := Path.join directory databaseName

def run (environment : Environment) (words : List String) (files : FileTree) (server : Server) :
    Ending × FileTree × Server :=
  match DataDirectory.locate environment words with
  | .error error => (.failed error, files, server)
  | .ok directory =>
    match (FileTree.makeDirectory environment.workingDirectory directory).run.run files with
    | (.error fault, files) => (.failed (.system fault), files, server)
    | (.ok _, files) =>
      match (FileTree.openDatabase environment.workingDirectory
        (databaseText directory)).run.run files with
      | (.error error, files) => (.failed (.store error), files, server)
      | (.ok opened, files) =>
        let (ending, session) := runOn environment words ⟨opened.database, server⟩
        (ending, files.close { opened with database := session.database }, session.server)

end Program

end SignalExchange
