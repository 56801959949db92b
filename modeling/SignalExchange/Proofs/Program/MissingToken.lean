import SignalExchange.Proofs.Program.Import
import SignalExchange.Proofs.ThreatExchange.Pages

/-! The error that says that no token is stored.

It comes from making a client and from nothing else: no request of a client ends with it, nor does
the creation of a record for a group.
-/

set_option autoImplicit false

namespace SignalExchange

open Call

namespace Call

variable {ε σ α β : Type}

/-- In no state the call fails with the error. -/
def NeverThrows (error : ε) (action : ExceptT ε (StateM σ) α) : Prop :=
  ∀ state, (outcome action state).1 ≠ .error error

variable {error : ε}

theorem NeverThrows.pure (value : α) :
    NeverThrows error (pure value : ExceptT ε (StateM σ) α) := by
  rintro _ ⟨⟩

theorem NeverThrows.throw {other : ε} (differs : other ≠ error) :
    NeverThrows error (throw other : ExceptT ε (StateM σ) α) :=
  fun _ same => differs (Except.error.inj same)

theorem NeverThrows.bind {action : ExceptT ε (StateM σ) α} {next : α → ExceptT ε (StateM σ) β}
    (first : NeverThrows error action) (rest : ∀ value, NeverThrows error (next value)) :
    NeverThrows error (action >>= next) := by
  intro state
  have here := first state
  rw [outcome_bind]
  generalize outcome action state = ran at here ⊢
  obtain ⟨result, middle⟩ := ran
  cases result with
  | error other =>
    rintro ⟨⟩
    exact here rfl
  | ok value => exact rest value middle

end Call

namespace Client

variable (client : Client)

theorem fetch_neverThrows {α : Type} (read : String → Except Json.ReadError α) (address : String)
    (pairs : List (String × String)) :
    NeverThrows .missingToken (client.fetch read address pairs) := by
  intro server
  rw [outcome_fetch]
  cases client.request? server.answersAt address pairs with
  | none => rintro ⟨⟩
  | some request =>
    dsimp only
    cases server.next with
    | dropped => rintro ⟨⟩
    | answer code body =>
      rw [Response.value]
      split
      · cases read (bodyText body) <;> rintro ⟨⟩
      · rintro ⟨⟩

theorem follow_neverThrows (fuel : Nat) (page : Page) :
    NeverThrows .missingToken (client.follow fuel page) := by
  -- By the pages that can still be asked for.
  induction fuel generalizing page with
  | zero =>
    cases goesOn : page.next with
    | none =>
      rw [client.follow_last goesOn]
      exact .pure _
    | some address =>
      unfold follow
      simp only [goesOn]
      exact .throw (by rintro ⟨⟩)
  | succ fuel ih =>
    cases goesOn : page.next with
    | none =>
      rw [client.follow_last goesOn]
      exact .pure _
    | some address =>
      rw [client.follow_more goesOn]
      exact (client.fetch_neverThrows _ _ _).bind fun next => (ih next).bind fun _ => .pure _

theorem privacyGroups_neverThrows : NeverThrows .missingToken client.privacyGroups := by
  have pages (edge : String) : NeverThrows .missingToken (client.allPages edge) := by
    have reads : NeverThrows RemoteError.missingToken (get : RequestM Server) := by
      rintro _ ⟨⟩
    exact reads.bind fun _ => (client.fetch_neverThrows _ _ _).bind fun _ =>
      client.follow_neverThrows _ _
  exact (pages _).bind fun _ => (pages _).bind fun _ => .pure _

end Client

namespace Database

theorem importAs_neverThrows (name : String) {id : Int} (fits : Integer.InRange id) :
    NeverThrows (CommandM.remoteError .missingToken)
      (collabStore.importAs name Standard.threatExchange.schema
        (EditSet.empty.set "privacy_group" (.integer id))) := by
  have stored {α : Type} (call : DatabaseM α) :
      NeverThrows (CommandM.remoteError .missingToken) (ConfigError.onStore call) := by
    intro database
    rw [outcome_onStore]
    cases (outcome call database).1 <;> rintro ⟨⟩
  have created : NeverThrows (CommandM.remoteError .missingToken)
      (collabStore.createNew Standard.threatExchange.schema (CollabStore.groupEdit name id)) := by
    refine NeverThrows.bind (fun database => ?_) fun collab => (stored _).bind fun _ => .pure _
    rw [outcome_ofExcept]
    by_cases named : name = ""
    · have refused : Collab.construct Standard.threatExchange.schema (CollabStore.groupEdit "" id) =
        .error (.userInput "Collab name cannot be empty") := rfl
      rw [named, refused]
      exact fun same => absurd (Except.error.inj same) (by decide)
    · rw [CollabStore.construct_group named fits]
      rintro ⟨⟩
  refine (stored _).bind fun found => ?_
  split
  · exact .throw (by rintro ⟨⟩)
  · exact created.bind fun _ => .pure _

end Database

namespace CommandM

theorem remoteError_ne {error : RemoteError} (differs : error ≠ .missingToken) :
    remoteError error ≠ remoteError .missingToken := by
  cases error with
  | missingToken => exact absurd rfl differs
  | transport => rintro ⟨⟩
  | status code body => rintro ⟨⟩
  | unexpected error => rintro ⟨⟩

theorem onServer_neverThrows {α : Type} {action : RequestM α}
    (never : NeverThrows .missingToken action) :
    NeverThrows (.config (remoteError .missingToken)) (onServer action) := by
  intro session
  have here := never session.server
  rw [outcome_onServer]
  generalize outcome action session.server = ran at here ⊢
  obtain ⟨result, after⟩ := ran
  cases result with
  | ok value => rintro ⟨⟩
  | error error =>
    intro same
    have differs : error ≠ .missingToken := fun same => here (congrArg Except.error same)
    exact remoteError_ne differs (ProgramError.config.inj (Except.error.inj same))

theorem config_neverThrows {α : Type} {error : ConfigError}
    {action : ExceptT ConfigError (StateM Database) α} (never : NeverThrows error action) :
    NeverThrows (.config error) (config action) := by
  intro session
  have here := never session.database
  rw [config, outcome_onDatabase]
  generalize outcome action session.database = ran at here ⊢
  obtain ⟨result, after⟩ := ran
  cases result with
  | ok value => rintro ⟨⟩
  | error other =>
    intro same
    exact here (congrArg Except.error (ProgramError.config.inj (Except.error.inj same)))

end CommandM

end SignalExchange
