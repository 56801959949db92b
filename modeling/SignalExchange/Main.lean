import SignalExchange.Database.Snapshot
import SignalExchange.Program.Run
import SignalExchange.Program.Usage

/-! The command line program: arguments, environment and files around a run.

The database is kept as one document in its file. No server is reached from here, and the record of
the user's account is not looked up.
-/

set_option autoImplicit false

namespace SignalExchange.CommandLine

def environmentNames : List String := ["SIGEX_HOME", "HOME", "USERPROFILE", "SIGEX_TE_BASE_URL"]

def readEnvironment : IO Environment := do
  let found ← environmentNames.mapM fun name => return (name, ← IO.getEnv name)
  let working ← IO.currentDir
  return {
    lookup? := fun name => (found.find? fun entry => entry.1 = name).bind (·.2)
    workingDirectory := Path.ofText working.toString
    accountHome := none }

/-- The database in a file that is there. -/
def readDatabase (file : String) : IO (Option Database) := do
  try
    let text ← IO.FS.readFile file
    match Database.ofText? text with
    | some database => return some database
    | none => throw (IO.userError s!"{file} holds no database")
  catch
    | .noFileOrDirectory .. => return none
    | error => throw error

def fail (error : ProgramError) : IO UInt32 := do
  IO.eprintln s!"Error: {error.message}"
  return UInt32.ofNat error.exitCode

def finish (ending : Program.Ending) : IO UInt32 := do
  match ending with
  | .printed text => IO.print text
  | .help => IO.println Usage.text
  | .badArguments fault => IO.eprintln s!"error: {fault.message}"
  | .failed error => IO.eprintln s!"Error: {error.message}"
  return UInt32.ofNat ending.exitCode

def runAt (environment : Environment) (words : List String) (text : String)
    (location : DatabaseLocation) : IO UInt32 := do
  let found ← if location.isTransient then pure none else readDatabase location.file
  if found.isNone && !location.isTransient && location.access ≠ .create then
    return ← fail (.store (.engine (.cannotOpen text)))
  match location.opened false (found.getD .blank) with
  | .error error => fail (.store error)
  | .ok database =>
    let (ending, session) := Program.runOn environment words ⟨database, .unreachable⟩
    if !location.isTransient then
      IO.FS.writeFile location.file session.database.toDocument.text
    finish ending

def runIn (environment : Environment) (words : List String) (directory : String) : IO UInt32 := do
  if directory ≠ "" then IO.FS.createDirAll directory
  let text := Program.databaseText directory
  match DatabaseLocation.read text with
  | .error fault => fail (.store (.engine fault))
  | .ok location => runAt environment words text location

def run (words : List String) : IO UInt32 := do
  let environment ← readEnvironment
  match DataDirectory.locate environment words with
  | .error error => fail error
  | .ok directory =>
    try runIn environment words directory
    catch error =>
      IO.eprintln s!"Error: {error}"
      return 1

end SignalExchange.CommandLine

def main (words : List String) : IO UInt32 := SignalExchange.CommandLine.run words
