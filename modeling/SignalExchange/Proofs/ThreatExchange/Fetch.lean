import Mathlib.Data.List.Infix
import SignalExchange.Proofs.Call
import SignalExchange.Proofs.Web.Address
import SignalExchange.Proofs.Web.Query
import SignalExchange.ThreatExchange.Client

/-! One request of a client.

What a request comes to is said by two things: the request that reaches a host, if one is made at
all, and the value that its response holds.
-/

set_option autoImplicit false

namespace SignalExchange

open Call

namespace Server

def next (server : Server) : Response := server.responses.headD exhausted

def asked (server : Server) (request : Url) : Server :=
  { server with
    responses := server.responses.tail
    requests := server.requests ++ [request] }

theorem respond_eq (server : Server) (request : Url) : respond request server =
    if server.answersAt request.origin then (server.next, server.asked request)
    else (.dropped, server) := by
  unfold respond next asked
  cases server.responses <;> rfl

end Server

/-- The value that a response holds, or what is wrong with it. -/
def Response.value {α : Type} (read : String → Except Json.ReadError α) :
    Response → Except RemoteError α
  | .dropped => .error .transport
  | .answer code body =>
    if Client.isSuccess code then
      (read (Client.bodyText body)).mapError fun error => .unexpected error.message
    else .error (.status code (Client.bodyText body))

namespace Response

variable {α : Type} {read : String → Except Json.ReadError α}

theorem value_eq_ok {response : Response} {value : α} : response.value read = .ok value ↔
    ∃ code body, response = .answer code body ∧ Client.isSuccess code = true ∧
      read (Client.bodyText body) = .ok value := by
  cases response with
  | dropped => simp [Response.value]
  | answer code body =>
    by_cases success : Client.isSuccess code = true <;>
      simp [Response.value, success, Except.mapError_eq_ok]

theorem value_exhausted : Server.exhausted.value read = .error (.status 404 "exhausted") := by
  have refused : Client.isSuccess 404 = false := rfl
  have body : Client.bodyText "exhausted" = "exhausted" := rfl
  simp [Server.exhausted, Response.value, refused, body]

theorem ne_exhausted {response : Response} {value : α} (holds : response.value read = .ok value) :
    response ≠ Server.exhausted := by
  rintro rfl
  cases value_exhausted.symm.trans holds

end Response

theorem Server.responses_of_next {α : Type} {read : String → Except Json.ReadError α}
    {server : Server} {value : α} (holds : server.next.value read = .ok value) (request : Url) :
    server.responses = server.next :: (server.asked request).responses := by
  have given := Response.ne_exhausted holds
  unfold next at given
  unfold next asked
  cases left : server.responses with
  | nil =>
    rw [left] at given
    exact absurd rfl given
  | cons response rest => rfl

theorem Server.value_next_eq_ok {α : Type} {read : String → Except Json.ReadError α}
    {server : Server} {value : α} : server.next.value read = .ok value ↔
      ∃ code body, server.responses.head? = some (.answer code body) ∧
        Client.isSuccess code = true ∧ read (Client.bodyText body) = .ok value := by
  constructor
  · intro holds
    rw [responses_of_next holds ⟨"", "", none⟩, List.head?_cons]
    simpa using Response.value_eq_ok.1 holds
  · rintro ⟨code, body, first, holds⟩
    refine Response.value_eq_ok.2 ⟨code, body, ?_, holds⟩
    rw [next, List.headD_eq_head?_getD, first, Option.getD_some]

namespace Client

theorem startsWith_iff {part text : List Char} : startsWith part text = true ↔ part <+: text := by
  induction part generalizing text with
  | nil => simp [startsWith]
  | cons c rest ih =>
    cases text with
    | nil => simp [startsWith]
    | cons d text => simp [startsWith, ih, List.cons_prefix_cons]

theorem occursIn_iff {part text : List Char} : occursIn part text = true ↔ part <:+: text := by
  induction text with
  | nil => simp [occursIn]
  | cons c rest ih => simp [occursIn, ih, startsWith_iff, List.infix_cons_iff]

variable (client : Client)

/-- The token is added unless the text of the address mentions one. -/
theorem tokenPairs_eq (address : String) : client.tokenPairs address =
    if "access_token=".toList <:+: address.toList then []
    else [("access_token", client.token)] := by
  have mentions : (tokenName ++ "=").toList = "access_token=".toList := rfl
  simp only [tokenPairs, occursIn_iff, mentions]
  rfl

/-- The request that an address leads to: none if the address cannot be used, or if nobody can be
reached there. The token is added unless the text of the address mentions one. -/
def request? (answersAt : String → Bool) (address : String) (pairs : List (String × String)) :
    Option Url :=
  match Url.read address with
  | none => none
  | some url =>
    if answersAt url.origin then some (url.addPairs (pairs ++ client.tokenPairs address)) else none

/-- The request for an address: behind the pairs of the address stand the given ones and the token,
unless the text of the address mentions one. -/
def Asks (answersAt : String → Bool) (address : String) (pairs : List (String × String))
    (request : Url) : Prop :=
  ∃ url, Url.read address = some url ∧ answersAt url.origin = true ∧
    url.Extends (pairs ++ if "access_token=".toList <:+: address.toList then []
      else [("access_token", client.token)]) request

theorem asks_iff {client : Client} {answersAt : String → Bool} {address : String}
    {pairs : List (String × String)} {request : Url} :
    client.Asks answersAt address pairs request ↔
      client.request? answersAt address pairs = some request := by
  unfold Asks request?
  rw [← tokenPairs_eq]
  cases Url.read address with
  | none => exact iff_of_false (by rintro ⟨url, ⟨⟩, -⟩) nofun
  | some url =>
    by_cases here : answersAt url.origin = true
    · simp only [here, if_true, Option.some.injEq, exists_eq_left', true_and, Url.extends_iff]
      exact eq_comm
    · simp [here]

theorem Asks.unique {client : Client} {answersAt : String → Bool} {address : String}
    {pairs : List (String × String)} {request other : Url}
    (asks : client.Asks answersAt address pairs request)
    (also : client.Asks answersAt address pairs other) : request = other :=
  Option.some.inj ((asks_iff.1 asks).symm.trans (asks_iff.1 also))

theorem not_asks_iff {client : Client} {answersAt : String → Bool} {address : String}
    {pairs : List (String × String)} : (∀ request, ¬client.Asks answersAt address pairs request) ↔
      client.request? answersAt address pairs = none := by
  simp only [asks_iff, Option.eq_none_iff_forall_ne_some, ne_eq]

theorem outcome_fetch {α : Type} (read : String → Except Json.ReadError α) (address : String)
    (pairs : List (String × String)) (server : Server) :
    outcome (client.fetch read address pairs) server =
      match client.request? server.answersAt address pairs with
      | none => (.error .transport, server)
      | some request => (server.next.value read, server.asked request) := by
  unfold fetch request?
  cases Url.read address with
  | none => rfl
  | some url =>
    -- The request is one step of the server, which never fails.
    have asking (request : Url) :
        outcome (liftM (Server.respond request) : RequestM Response) server =
          (.ok (Server.respond request server).1, (Server.respond request server).2) := rfl
    have there : (url.addPairs (pairs ++ client.tokenPairs address)).origin = url.origin := rfl
    simp only [outcome_bind, asking, Server.respond_eq, there]
    by_cases here : server.answersAt url.origin = true
    · simp only [here, if_true]
      cases server.next with
      | dropped => rfl
      | answer code body =>
        by_cases success : isSuccess code = true
        · cases result : read (bodyText body) <;> simp [success, result, Response.value]
        · simp [success, Response.value]
    · simp only [here]
      rfl

theorem request?_of_answers {server : Server} {address : String} (answers : server.Answers address)
    (pairs : List (String × String)) :
    ∃ request, client.request? server.answersAt address pairs = some request := by
  obtain ⟨url, reads, here⟩ := answers
  rw [request?, reads]
  exact ⟨_, if_pos here⟩

theorem outcome_privacyGroup {id : Int} {server : Server} {request : Url}
    (asks : client.request? server.answersAt
      (client.baseUrl ++ "/" ++ String.ofList (Integer.text id)) groupFields = some request) :
    outcome (client.privacyGroup id) server =
      (server.next.value PrivacyGroup.read, server.asked request) := by
  rw [privacyGroup, outcome_fetch, asks]

end Client

end SignalExchange
