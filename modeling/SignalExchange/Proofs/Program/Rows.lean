import SignalExchange.Proofs.Program.Commands
import SignalExchange.Proofs.Program.Files

/-! What a whole run does to the rows of all databases. -/

set_option autoImplicit false

namespace SignalExchange

open Call

namespace Program

open CommandM

/-- What the words are matched to on the command line that the database gives. -/
def matched (words : List String) : CommandM (Except ArgumentFault Matches) := do
  let (workspace, _) ← config (Database.extensionStore.load .standard)
  let surfaces ← pure? workspace.exchanges.surfaces
  let command ← pure? (CommandTree.withSurfaces surfaces)
  return command.parse words

/-- Help, the version or a listing. -/
def Shows.words (found : Except ArgumentFault Matches) : Bool :=
  match found with
  | .error .helpShown => true
  | .error .versionShown => true
  | .error _ => false
  | .ok found =>
    match found.subcommand with
    | some (_, inner) => Shows.config inner
    | none => false

def respond (environment : Environment) (workspace : Workspace) (surfaces : List Surface)
    (found : Except ArgumentFault Matches) : CommandM Ending :=
  match found with
  | .error .helpShown => return .help
  | .error .versionShown => return .printed versionText
  | .error fault => return .badArguments fault
  | .ok found =>
    match found.subcommand with
    | some (_, inner) => return .printed (← configCommand environment workspace surfaces inner)
    | none => return .badArguments .missingSubcommand

variable (environment : Environment) (words : List String)

theorem perform_eq : perform environment words = (do
    let (workspace, _) ← config (Database.extensionStore.load .standard)
    let surfaces ← pure? workspace.exchanges.surfaces
    let command ← pure? (CommandTree.withSurfaces surfaces)
    respond environment workspace surfaces (command.parse words)) := by
  unfold perform respond
  rfl

/-- The rows stay, or one of them changes in a run that succeeds and does not only show a text. -/
def Changes (showing : Bool) (session : Session) (ran : Except ProgramError Ending × Session) :
    Prop :=
  ran.2.rows = session.rows ∨
    showing = false ∧ (∃ text, ran.1 = .ok (.printed text)) ∧ OneApart session.rows ran.2.rows

theorem respond_changes (workspace : Workspace) (surfaces : List Surface)
    (found : Except ArgumentFault Matches) (session : Session) :
    Changes (Shows.words found) session
      (outcome (respond environment workspace surfaces found) session) := by
  cases found with
  | error fault =>
    -- Nothing is read or written when the words do not match.
    refine .inl ?_
    cases fault <;> rfl
  | ok found =>
    unfold respond Shows.words
    dsimp only
    cases found.subcommand with
    | none => exact .inl rfl
    | some chosen =>
      obtain ⟨name, inner⟩ := chosen
      dsimp only
      cases showing : Shows.config inner with
      | true =>
        have reads := reads_configCommand environment workspace surfaces showing
        exact .inl (reads.map Ending.printed session)
      | false =>
        have writes := writes_configCommand environment workspace surfaces inner session
        unfold WritesOnceFrom at writes
        rw [bind_pure_comp, outcome_map]
        generalize outcome (configCommand environment workspace surfaces inner) session = ran
          at writes ⊢
        obtain ⟨result, after⟩ := ran
        cases result with
        | ok text => exact .inr ⟨rfl, ⟨text, rfl⟩, writes⟩
        | error error => exact .inl writes

/-- The words ask for nothing but a text, as far as the command line can be built. -/
def showsOn (words : List String) (session : Session) : Bool :=
  (outcome (matched words) session).1.toOption.any Shows.words

theorem perform_changes (session : Session) :
    Changes (showsOn words session) session (outcome (perform environment words) session) := by
  have loads := @reads_onDatabase _ _ .config _
    (Database.extensionStore_orderly.load .standard) session
  rw [perform_eq, showsOn, matched]
  simp only [outcome_bind, config, pure?, outcome_ofExcept]
  -- Both the run and the question what it shows start with the same load.
  generalize outcome (onDatabase ProgramError.config (Database.extensionStore.load .standard))
    session = ran at loads ⊢
  obtain ⟨result, after⟩ := ran
  cases result with
  | error error => exact .inl loads
  | ok loaded =>
    obtain ⟨workspace, skipped⟩ := loaded
    dsimp only at loads ⊢
    cases workspace.exchanges.surfaces with
    | error error => exact .inl loads
    | ok surfaces =>
      simp only [Except.mapError_ok]
      cases CommandTree.withSurfaces surfaces with
      | error error => exact .inl loads
      | ok command =>
        have changes := respond_changes environment workspace surfaces (command.parse words) after
        unfold Changes at changes ⊢
        rw [loads] at changes
        exact changes

theorem runOn_rows (session : Session) :
    (runOn environment words session).2.rows = session.rows ∨
      showsOn words session = false ∧ (runOn environment words session).1.exitCode = 0 ∧
        OneApart session.rows (runOn environment words session).2.rows := by
  have changes := perform_changes environment words session
  unfold Changes outcome at changes
  unfold runOn
  generalize (perform environment words).run.run session = ran at changes ⊢
  obtain ⟨result, after⟩ := ran
  rcases changes with same | ⟨showing, ⟨text, printed⟩, apart⟩
  · cases result <;> exact .inl same
  · cases printed
    exact .inr ⟨showing, rfl, apart⟩

/-- The words of a run ask for help, the version or a listing. -/
def showsOnly (environment : Environment) (words : List String) (files : FileTree)
    (server : Server) : Bool :=
  match DataDirectory.locate environment words with
  | .error _ => false
  | .ok directory =>
    match outcome (FileTree.makeDirectory environment.workingDirectory directory) files with
    | (.error _, _) => false
    | (.ok _, files) =>
      match outcome (FileTree.openDatabase environment.workingDirectory
        (databaseText directory)) files with
      | (.error _, _) => false
      | (.ok opened, _) => showsOn words ⟨opened.database, server⟩

theorem run_rows (files : FileTree) (server : Server) :
    (run environment words files server).2.1.rows = files.rows ∨
      showsOnly environment words files server = false ∧
        (run environment words files server).1.exitCode = 0 ∧
        OneApart files.rows (run environment words files server).2.1.rows := by
  unfold run showsOnly
  cases DataDirectory.locate environment words with
  | error error => exact .inl rfl
  | ok directory =>
    -- Directories are made and the database is opened without a change to any row, so only the
    -- command counts, and its changes come into the files when the database is closed.
    have makes := FileTree.reads_makeDirectory environment.workingDirectory directory files
    unfold outcome at makes ⊢
    dsimp only
    generalize (FileTree.makeDirectory environment.workingDirectory directory).run.run files =
      ran at makes ⊢
    obtain ⟨result, files⟩ := ran
    cases result with
    | error fault => exact .inl makes
    | ok made =>
      have opens := FileTree.reads_openDatabase environment.workingDirectory
        (databaseText directory) files
      dsimp only at makes ⊢
      rw [← makes]
      rcases ran : outcome (FileTree.openDatabase environment.workingDirectory
        (databaseText directory)) files with ⟨result, after⟩
      rw [ran] at opens
      unfold outcome at ran
      rw [ran]
      cases result with
      | error error => exact .inl opens
      | ok opened =>
        have agrees := FileTree.openDatabase_agrees ran
        dsimp only at opens ⊢
        rw [← opens]
        rcases runOn_rows environment words ⟨opened.database, server⟩ with
          same | ⟨showing, success, apart⟩
        · exact .inl (FileTree.rows_close agrees same)
        · exact .inr ⟨showing, success, FileTree.oneApart_close agrees apart⟩

/-- A run that fails changes no row of any database, one that succeeds changes at most one, and
one that was asked for help, the version or a listing changes none. -/
theorem run_changes_one_row (files : FileTree) (server : Server) :
    ((run environment words files server).1.exitCode ≠ 0 →
      (run environment words files server).2.1.rows = files.rows) ∧
    ((run environment words files server).1.exitCode = 0 →
      OneApart files.rows (run environment words files server).2.1.rows) ∧
    (showsOnly environment words files server = true →
      (run environment words files server).2.1.rows = files.rows) := by
  rcases run_rows environment words files server with same | ⟨showing, success, apart⟩
  · exact ⟨fun _ => same, fun _ => .of_eq same, fun _ => same⟩
  · refine ⟨fun failed => absurd success failed, fun _ => apart, fun shows => ?_⟩
    rw [showing] at shows
    cases shows

def freshHome : Environment :=
  ⟨fun name => if name = "HOME" then some "/home" else none, .root, none⟩

def storeCredentials : List String := ["config", "api", "ncmec", "--credentials", "u", "p"]

def noFiles : FileTree := ⟨[], [], []⟩

/-- The first run makes the database, and the credentials are the one row in it. -/
theorem credentials_take_one_row :
    (run freshHome storeCredentials noFiles .unreachable).1.exitCode = 0 ∧
    OneApart noFiles.rows (run freshHome storeCredentials noFiles .unreachable).2.1.rows ∧
    (run freshHome storeCredentials noFiles .unreachable).2.1.rows
      (⟨"/home/.sigex/sigex.db"⟩, .settings, credentialsKey) =
        some (.setting "[\"u\",\"p\"]") := by
  have success : (run freshHome storeCredentials noFiles .unreachable).1.exitCode = 0 := by
    decide +kernel
  refine ⟨success, (run_changes_one_row _ _ _ _).2.1 success, ?_⟩
  decide +kernel

end Program

end SignalExchange
