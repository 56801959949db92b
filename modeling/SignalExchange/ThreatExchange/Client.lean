import SignalExchange.Text.CharSet
import SignalExchange.ThreatExchange.Group
import SignalExchange.Web.Server

/-! The client for privacy groups: single groups, and the groups on all pages of two lists. -/

set_option autoImplicit false

namespace SignalExchange

inductive RemoteError where
  /-- No request could be made, or none was answered. -/
  | transport
  | status (code : Nat) (body : String)
  | unexpected (error : String)
  | missingToken
  deriving DecidableEq, Repr

def RemoteError.message : RemoteError → String
  | .transport => "Request failed: error sending request"
  | .status code body => s!"ThreatExchange returned {code}: {body}"
  | .unexpected error => "Unexpected response: " ++ error
  | .missingToken => "No ThreatExchange API token configured (set one with --api-token)"

structure Client where
  token : String
  /-- Without slashes at its end. -/
  baseUrl : String
  deriving DecidableEq, Repr

/-- Requests to a server; a failure comes with the server that it leaves. -/
abbrev RequestM := ExceptT RemoteError (StateM Server)

namespace Client

def defaultBaseUrl : String := "https://graph.facebook.com/v16.0"

def withoutEndSlashes (text : String) : String :=
  String.ofList ((text.toList.reverse.dropWhile (· = '/')).reverse)

def create (token : String) (baseUrl : Option String) : Except RemoteError Client :=
  if isBlankText token then .error .missingToken
  else .ok ⟨token, (baseUrl.map withoutEndSlashes).getD defaultBaseUrl⟩

def groupFields : List (String × String) :=
  [("fields", "id,name,description,threat_updates_enabled")]

def startsWith : List Char → List Char → Bool
  | [], _ => true
  | _ :: _, [] => false
  | c :: rest, d :: text => c = d && startsWith rest text

def occursIn (part : List Char) : List Char → Bool
  | [] => part.isEmpty
  | c :: rest => startsWith part (c :: rest) || occursIn part rest

def tokenName : String := "access_token"

/-- An address that mentions a token already gets no other. -/
def tokenPairs (client : Client) (address : String) : List (String × String) :=
  if occursIn (tokenName ++ "=").toList address.toList then [] else [(tokenName, client.token)]

/-- A byte order mark at the start of a body is dropped. -/
def bodyText (body : String) : String :=
  match body.toList with
  | '\ufeff' :: rest => String.ofList rest
  | _ => body

def isSuccess (code : Nat) : Bool := 200 ≤ code && code < 300

/-- One request, and the reading of its answer. -/
def fetch {α : Type} (client : Client) (read : String → Except Json.ReadError α)
    (address : String) (pairs : List (String × String)) : RequestM α := do
  match Url.read address with
  | none => throw .transport
  | some url =>
    match ← (Server.respond (url.addPairs (pairs ++ client.tokenPairs address)) :
        StateM Server Response) with
    | .dropped => throw .transport
    | .answer code body =>
      if !isSuccess code then throw (.status code (bodyText body))
      match read (bodyText body) with
      | .ok value => return value
      | .error error => throw (.unexpected error.message)

/-- The groups of a page and of the pages that follow it. Every page takes a response, so the
responses that the server has left bound the pages that can follow. -/
def follow (client : Client) : Nat → Page → RequestM (List PrivacyGroup)
  | fuel, page =>
    match page.next, fuel with
    | none, _ => return page.groups
    | some _, 0 => throw .transport
    | some address, fuel + 1 => do
      let next ← client.fetch Page.read address []
      return page.groups ++ (← client.follow fuel next)

def allPages (client : Client) (edge : String) : RequestM (List PrivacyGroup) := do
  let server ← get
  let first ← client.fetch Page.read (client.baseUrl ++ "/" ++ edge) groupFields
  client.follow server.responses.length first

def memberEdge : String := "threat_privacy_groups_member"

def ownerEdge : String := "threat_privacy_groups_owner"

def addUnknown (groups : List PrivacyGroup) (group : PrivacyGroup) : List PrivacyGroup :=
  if groups.any fun known => known.id = group.id then groups else groups ++ [group]

/-- The groups of both lists by identifier. The second list adds groups that the first lacks. -/
def merge (member owner : List PrivacyGroup) : List PrivacyGroup :=
  (owner.foldl addUnknown member).mergeSort fun a b => a.id ≤ b.id

def privacyGroups (client : Client) : RequestM (List PrivacyGroup) := do
  let member ← client.allPages memberEdge
  let owner ← client.allPages ownerEdge
  return merge member owner

def privacyGroup (client : Client) (id : Int) : RequestM PrivacyGroup :=
  client.fetch PrivacyGroup.read
    (client.baseUrl ++ "/" ++ String.ofList (Integer.text id)) groupFields

end Client

end SignalExchange
