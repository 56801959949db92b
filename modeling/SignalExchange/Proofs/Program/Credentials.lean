import SignalExchange.Proofs.Database.SettingTable
import SignalExchange.Proofs.Program.CommandLine

/-! What a run stores of the credentials that it is given. -/

set_option autoImplicit false

namespace SignalExchange

open Call Command

namespace CommandTree

/-- The user and the password for NCMEC, which may be given again and again. -/
def credentials : Argument := ncmec.arguments[0]

theorem pair_of_brings {taken : List String} {values : List Json}
    (brings : credentials.Brings taken values) :
    ∃ pair : String × String, taken = [pair.1, pair.2] ∧
      values = [.string pair.1, .string pair.2] := by
  obtain ⟨some, few⟩ : 2 ≤ taken.length ∧ taken.length ≤ 2 := Argument.length_of_brings brings
  have read := Argument.read_of_brings brings nofun rfl
  obtain ⟨user, password, rfl⟩ := List.length_eq_two.1 (le_antisymm few some)
  obtain ⟨first, rest, readUser, others, rfl⟩ := List.forall₂_cons_left_iff.1 read
  obtain ⟨second, none, readPassword, ⟨⟩, rfl⟩ := List.forall₂_cons_left_iff.1 others
  cases readUser
  cases readPassword
  exact ⟨(user, password), rfl, rfl⟩

theorem reserves_credentials {command : Command}
    (among : command.allArguments ⊆ credentials :: shared) : command.Reserves credentials := by
  have only : ∀ other ∈ credentials :: shared,
      other.id = credentials.id ∨ other.long = credentials.long → other = credentials := by decide
  exact ⟨nofun, rfl, fun other member => only other (among member)⟩

theorem matched_of_takes {words : List String} {session : Session} {workspace : Workspace}
    {surfaces : List Surface} {found : Matches}
    (takes : Program.Takes words session workspace surfaces found)
    (path : found.path = ["config", "api", "ncmec"]) :
    credentials.Matched (credentials.given words) found.innermost.values := by
  have parts : ∀ before inner, before <+: found.path →
      descend before (root surfaces) = some inner → inner.Parts credentials := by
    intro before inner within leads
    refine ⟨reserves_credentials ?_, (parts_of_takes takes leads).plain⟩
    rcases shared_of_before_api (path ▸ within) leads with rfl | among
    · have leads : some (ncmec.inheriting inherited) = some inner := leads
      cases leads
      decide
    · exact fun other member => List.mem_cons_of_mem _ (among member)
  have shares := Argument.shared_of_reads (reads_of_parse takes.parsed) parts
  refine shares.innermost fun before inner within proper leads => ?_
  rcases shared_of_before_api (path ▸ within) leads with same | among
  · exact absurd (same.trans path.symm) proper
  · have foreign : credentials ∉ shared := by decide
    exact fun member => foreign (among member)

end CommandTree

namespace Program

open CommandM CommandTree

theorem outcome_ncmec_of_pair {found : Matches} {user password : Json}
    (held : found.all? credentialsId = some [user, password]) (session : Session) :
    outcome (ncmecCommand found) session =
      match session.database.settings with
      | some rows => (.ok "", { session with database :=
          { session.database with settings := some (Ascending.insert credentialsKey
            (Json.array [user, password]).text rows) } })
      | none => (.error (.store (.engine (.noSuchTable Database.settingTable))), session) := by
  rw [ncmecCommand, held]
  dsimp only
  rw [outcome_bind, store, outcome_onDatabase, Database.outcome_setSetting]
  cases session.database.settings with
  | some rows => rfl
  | none => rfl

theorem outcome_ncmec_of_others {found : Matches}
    (others : ∀ user password, found.all? credentialsId ≠ some [user, password])
    (session : Session) : outcome (ncmecCommand found) session = (.ok "", session) := by
  unfold ncmecCommand
  split
  next user password held => exact absurd held (others user password)
  next => rfl

/-- Credentials that are given once are stored when there is a table for settings. A run that is
given them more than once, or not at all, succeeds and leaves everything as it was. -/
theorem credentials_of_matched {words : List String} {session : Session} {found : Matches}
    (accepted : (outcome (matched words) session).1 = .ok (.ok found))
    (path : found.path = ["config", "api", "ncmec"]) (environment : Environment) :
    ∃ given : List (String × String),
      credentials.given words = given.map (fun pair => [pair.1, pair.2]) ∧
      (∀ user password, given = [(user, password)] →
        (∀ rows, session.database.settings = some rows →
          runOn environment words session = (.printed "", { session with database :=
            { session.database with settings := some (Ascending.insert credentialsKey
              (Json.array [.string user, .string password]).text rows) } })) ∧
        (session.database.settings = none →
          (runOn environment words session).1.exitCode ≠ 0 ∧
            (runOn environment words session).2 = session)) ∧
      (given.length ≠ 1 → runOn environment words session = (.printed "", session)) := by
  obtain ⟨workspace, surfaces, takes⟩ := takes_of_matched accepted
  obtain ⟨⟨brought, brings, held⟩, -⟩ := matched_of_takes takes path
  obtain ⟨given, same, rfl⟩ := exists_map_of_forall₂ (fun _ _ => pair_of_brings) brings
  have held : found.innermost.all? credentialsId = _ := held
  rw [same] at held
  have ran := runOn_of_takes takes environment
  have handled : apiCommand environment workspace (.mk [] (some ("ncmec", found.innermost))) =
    ncmecCommand found.innermost := rfl
  rw [respond_api path, outcome_map, handled] at ran
  refine ⟨given, same, ?_, fun several => ?_⟩
  · rintro user password rfl
    rw [outcome_ncmec_of_pair held] at ran
    constructor
    · intro rows there
      rw [ran, there]
      rfl
    · intro missing
      rw [ran, missing]
      exact ⟨Nat.one_ne_zero, rfl⟩
  · have others : ∀ user password,
        found.innermost.all? credentialsId ≠ some [user, password] := by
      intro user password two
      rw [held] at two
      -- Each pair has two values, and there is not one pair.
      match given, several with
      | [], _ => cases two
      | [_], once => exact once rfl
      | _ :: _ :: _, _ => simp at two
    rw [ran, outcome_ncmec_of_others others]
    rfl

def storedCredentials : Database :=
  { Database.empty with settings := some [(credentialsKey, "[\"u\",\"p\"]")] }

theorem credentials_stored : ∃ found,
    (outcome (matched storeCredentials) freshSession).1 = .ok (.ok found) ∧
    found.path = ["config", "api", "ncmec"] ∧
    runOn freshHome storeCredentials freshSession =
      (.printed "", { freshSession with database := storedCredentials }) := by
  obtain ⟨found, accepted, path⟩ : ∃ found,
      (outcome (matched storeCredentials) freshSession).1 = .ok (.ok found) ∧
      found.path = ["config", "api", "ncmec"] := ⟨_, rfl, rfl⟩
  obtain ⟨given, same, once, -⟩ := credentials_of_matched accepted path freshHome
  have words : given.map (fun pair => [pair.1, pair.2]) = [["u", "p"]] :=
    same.symm.trans (by decide +kernel)
  obtain ⟨pair, rfl, isPair⟩ := List.map_eq_singleton_iff.1 words
  obtain ⟨user, password⟩ := pair
  cases isPair
  exact ⟨found, accepted, path, (once _ _ rfl).1 [] rfl⟩

def changeCredentials : List String := storeCredentials ++ ["--credentials", "v", "q"]

/-- Of credentials that are given twice neither are stored, but the run succeeds. -/
theorem credentials_given_twice : ∃ found,
    (outcome (matched changeCredentials) freshSession).1 = .ok (.ok found) ∧
    found.path = ["config", "api", "ncmec"] ∧
    credentials.given changeCredentials = [["u", "p"], ["v", "q"]] ∧
    (runOn freshHome changeCredentials freshSession).1.exitCode = 0 ∧
    (runOn freshHome changeCredentials freshSession).2.database.settings = some [] :=
  ⟨_, rfl, rfl, by decide +kernel, rfl, rfl⟩

end Program

end SignalExchange
