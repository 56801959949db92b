import SignalExchange.Web.Url

/-! The web as a client sees it.

The responses are prepared, one for each request that reaches a host. A response is what the HTTP
library yields in the end, so redirects were followed before it.
-/

set_option autoImplicit false

namespace SignalExchange

inductive Response where
  | answer (status : Nat) (body : String)
  /-- The connection is closed without an answer. -/
  | dropped
  deriving DecidableEq, Repr

structure Server where
  /-- Whether somebody can be reached at an origin. -/
  answersAt : String → Bool
  responses : List Response
  /-- The requests so far, in their order. -/
  requests : List Url

namespace Server

/-- What is given where no response is left. -/
def exhausted : Response := .answer 404 "exhausted"

def unreachable : Server := ⟨fun _ => false, [], []⟩

/-- One request. -/
def respond (request : Url) : StateM Server Response := fun server =>
  if server.answersAt request.origin then
    let requests := server.requests ++ [request]
    match server.responses with
    | [] => (exhausted, { server with requests := requests })
    | response :: rest => (response, { server with responses := rest, requests := requests })
  else (.dropped, server)

end Server

end SignalExchange
