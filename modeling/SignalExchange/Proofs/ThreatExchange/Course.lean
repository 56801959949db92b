import SignalExchange.Proofs.ThreatExchange.Merge
import SignalExchange.Proofs.ThreatExchange.PageText

/-! The course of a request for all groups.

The requests that a client makes follow from the responses that it gets: each list is walked from
its first page along the addresses of the next ones, the second list after the first. The course is
said without the loop of the client, and the client is shown to take it on every server.
-/

set_option autoImplicit false

namespace SignalExchange

open Call

/-- A request that reached somebody, and the response to it. -/
structure Server.Visit where
  request : Url
  response : Response

namespace Client

/-- The course of a walk from an address on: the requests that reach somebody, the pages, and the
error that ends the walk, if it does not end with a page that names no other. -/
inductive Course (client : Client) (answersAt : String → Bool) :
    String → List (String × String) → List Server.Visit → List Page → Option RemoteError →
      Prop where
  | unreached {address : String} {pairs : List (String × String)}
      (nowhere : ∀ request, ¬client.Asks answersAt address pairs request) :
      Course client answersAt address pairs [] [] (some .transport)
  | failed {address : String} {pairs : List (String × String)} {request : Url}
      {response : Response} {error : RemoteError}
      (asks : client.Asks answersAt address pairs request)
      (fails : response.value Page.read = .error error) :
      Course client answersAt address pairs [⟨request, response⟩] [] (some error)
  | last {address : String} {pairs : List (String × String)} {request : Url} {response : Response}
      {page : Page} (asks : client.Asks answersAt address pairs request)
      (gives : response.value Page.read = .ok page) (ends : page.next = none) :
      Course client answersAt address pairs [⟨request, response⟩] [page] none
  | more {address link : String} {pairs : List (String × String)} {request : Url}
      {response : Response} {page : Page} {visits : List Server.Visit} {pages : List Page}
      {fault : Option RemoteError} (asks : client.Asks answersAt address pairs request)
      (gives : response.value Page.read = .ok page) (goesOn : page.next = some link)
      (rest : Course client answersAt link [] visits pages fault) :
      Course client answersAt address pairs (⟨request, response⟩ :: visits) (page :: pages) fault

/-- The walk along the pages of a list. -/
def Walk (client : Client) (answersAt : String → Bool) (edge : String) :
    List Server.Visit → List Page → Option RemoteError → Prop :=
  client.Course answersAt (client.baseUrl ++ "/" ++ edge)
    [("fields", "id,name,description,threat_updates_enabled")]

/-- The groups, unless there was an error. -/
def unlessFault (groups : List PrivacyGroup) :
    Option RemoteError → Except RemoteError (List PrivacyGroup)
  | none => .ok groups
  | some error => .error error

/-- The course of a request for all groups, and its result. Only a first list that ends without an
error is followed by the second one, and an error leaves nothing of the pages before it. -/
inductive Gathering (client : Client) (answersAt : String → Bool) :
    List Server.Visit → Except RemoteError (List PrivacyGroup) → Prop where
  | memberFails {visits : List Server.Visit} {pages : List Page} {error : RemoteError}
      (member : client.Walk answersAt memberEdge visits pages (some error)) :
      Gathering client answersAt visits (.error error)
  | through {first second : List Server.Visit} {pages more : List Page}
      {fault : Option RemoteError} (member : client.Walk answersAt memberEdge first pages none)
      (owner : client.Walk answersAt ownerEdge second more fault) :
      Gathering client answersAt (first ++ second)
        (unlessFault (merge (groupsOn pages) (groupsOn more)) fault)

end Client

namespace Server

/-- The requests are those of the visits. Each takes the next response, and at most the last of
them comes when none is left. -/
structure Serves (server : Server) (visits : List Visit) (after : Server) : Prop where
  reach : after.answersAt = server.answersAt
  requests : after.requests = server.requests ++ visits.map (·.request)
  responses : visits.map (·.response) ++ after.responses = server.responses ∨
    visits.map (·.response) = server.responses ++ [exhausted] ∧ after.responses = []

variable {server middle after : Server} {visits more : List Visit}

theorem Serves.refl (server : Server) : server.Serves [] server :=
  ⟨rfl, by simp, .inl (by simp)⟩

theorem serves_asked (server : Server) (request : Url) :
    server.Serves [⟨request, server.next⟩] (server.asked request) := by
  refine ⟨rfl, by simp [asked], ?_⟩
  unfold next asked
  cases left : server.responses with
  | nil => exact .inr ⟨rfl, rfl⟩
  | cons response rest => exact .inl rfl

theorem Serves.append (first : server.Serves visits middle) (second : middle.Serves more after)
    (answered : exhausted ∉ visits.map (·.response)) :
    server.Serves (visits ++ more) after := by
  have given : visits.map (·.response) ++ middle.responses = server.responses := by
    rcases first.responses with given | ⟨past, -⟩
    · exact given
    · exact absurd (past ▸ by simp) answered
  refine ⟨second.reach.trans first.reach, ?_, ?_⟩
  · rw [second.requests, first.requests, List.map_append, List.append_assoc]
  · rcases second.responses with rest | ⟨past, none⟩
    · left
      rw [List.map_append, List.append_assoc, rest, given]
    · right
      rw [List.map_append, past, ← given, List.append_assoc]
      exact ⟨rfl, none⟩

theorem Serves.isPrefix (serves : server.Serves visits after) :
    visits.map (·.response) <+: server.responses ++ [exhausted] := by
  rcases serves.responses with given | ⟨past, -⟩
  · rw [← given, List.append_assoc]
    exact List.prefix_append _ _
  · exact past ▸ List.prefix_rfl

/-- The requests and their responses determine the server that is left. -/
theorem Serves.unique {other : Server} (serves : server.Serves visits after)
    (also : server.Serves visits other) : after = other := by
  have responses : after.responses = other.responses := by
    rcases serves.responses with given | ⟨past, none⟩
    · rcases also.responses with givenToo | ⟨pastToo, -⟩
      · exact List.append_cancel_left (given.trans givenToo.symm)
      · have lengths := congrArg List.length (pastToo ▸ given)
        simp at lengths
    · rcases also.responses with given | ⟨-, noneToo⟩
      · have lengths := congrArg List.length (past ▸ given)
        simp at lengths
      · rw [none, noneToo]
  have reach : after.answersAt = other.answersAt := serves.reach.trans also.reach.symm
  have requests : after.requests = other.requests := serves.requests.trans also.requests.symm
  cases after
  cases other
  simp_all

theorem Serves.length_le (serves : server.Serves visits after) :
    visits.length ≤ server.responses.length + 1 := by
  rcases serves.responses with given | ⟨past, -⟩
  · have lengths := congrArg List.length given
    simp only [List.length_append, List.length_map] at lengths
    omega
  · have lengths := congrArg List.length past
    simp only [List.length_append, List.length_map, List.length_singleton] at lengths
    omega

end Server

namespace Client

variable {client : Client} {server after : Server}

theorem Course.answered {answersAt : String → Bool} {address : String}
    {pairs : List (String × String)} {visits : List Server.Visit} {pages : List Page}
    {fault : Option RemoteError} (course : client.Course answersAt address pairs visits pages fault)
    (ends : fault = none) : Server.exhausted ∉ visits.map (·.response) := by
  induction course with
  | unreached => cases ends
  | failed => cases ends
  | last _ gives => simpa using (Response.ne_exhausted gives).symm
  | more _ gives _ _ ih => simpa using ⟨(Response.ne_exhausted gives).symm, by simpa using ih ends⟩

/-! The walk of the loop -/

def listFrom (client : Client) (fuel : Nat) (address : String) (pairs : List (String × String)) :
    RequestM (List PrivacyGroup) :=
  client.fetch Page.read address pairs >>= client.follow fuel

theorem outcome_listFrom (fuel : Nat) (address : String) (pairs : List (String × String))
    (server : Server) : outcome (client.listFrom fuel address pairs) server =
      match client.request? server.answersAt address pairs with
      | none => (.error .transport, server)
      | some request =>
        match server.next.value Page.read with
        | .ok page => outcome (client.follow fuel page) (server.asked request)
        | .error error => (.error error, server.asked request) := by
  rw [listFrom, outcome_bind, outcome_fetch]
  cases client.request? server.answersAt address pairs with
  | none => rfl
  | some request => cases server.next.value Page.read <;> rfl

theorem follow_listFrom {page : Page} {link : String} (goesOn : page.next = some link)
    (fuel : Nat) : client.follow (fuel + 1) page =
      (client.listFrom fuel link [] >>= fun groups => pure (page.groups ++ groups)) := by
  rw [follow_more goesOn, listFrom, bind_assoc]

theorem course_of_listFrom {fuel : Nat} {address : String} {pairs : List (String × String)}
    {result : Except RemoteError (List PrivacyGroup)}
    (enough : server.responses.length ≤ fuel)
    (run : outcome (client.listFrom fuel address pairs) server = (result, after)) :
    ∃ visits pages fault, client.Course server.answersAt address pairs visits pages fault ∧
      server.Serves visits after ∧ result = unlessFault (groupsOn pages) fault := by
  induction fuel using Nat.strongRecOn generalizing server after address pairs result with
  | ind fuel ih =>
    rw [outcome_listFrom] at run
    cases asks : client.request? server.answersAt address pairs with
    | none =>
      simp only [asks, Prod.mk.injEq] at run
      obtain ⟨rfl, rfl⟩ := run
      exact ⟨[], [], _, .unreached (not_asks_iff.2 asks), .refl server, rfl⟩
    | some request =>
      have served := Server.serves_asked server request
      have made := asks_iff.2 asks
      cases gives : server.next.value Page.read with
      | error error =>
        simp only [asks, gives, Prod.mk.injEq] at run
        obtain ⟨rfl, rfl⟩ := run
        exact ⟨_, [], _, .failed made gives, served, rfl⟩
      | ok page =>
        simp only [asks, gives] at run
        cases goesOn : page.next with
        | none =>
          simp only [follow_last goesOn, outcome_pure, Prod.mk.injEq] at run
          obtain ⟨rfl, rfl⟩ := run
          exact ⟨_, _, _, .last made gives goesOn, served, by simp [unlessFault, groupsOn]⟩
        | some link =>
          -- The page came from a response, so there is fuel for what follows it.
          have taken := congrArg List.length (Server.responses_of_next gives request)
          rw [List.length_cons] at taken
          obtain _ | fuel := fuel
          · omega
          rw [follow_listFrom goesOn, outcome_bind] at run
          rcases walked : outcome (client.listFrom fuel link []) (server.asked request) with
            ⟨found, middle⟩
          obtain ⟨visits, pages, fault, course, serves, rfl⟩ :=
            ih fuel (Nat.lt_succ_self fuel) (by omega) walked
          have rest : middle = after ∧ result = unlessFault (groupsOn (page :: pages)) fault := by
            rw [walked] at run
            cases fault <;> simp_all [unlessFault, groupsOn]
          obtain ⟨rfl, rfl⟩ := rest
          have answered : Server.exhausted ∉ [server.next] := by
            simpa using (Response.ne_exhausted gives).symm
          exact ⟨_, _, _, .more made gives goesOn course, served.append serves answered, rfl⟩

theorem walk_of_allPages {edge : String} {result : Except RemoteError (List PrivacyGroup)}
    (run : outcome (client.allPages edge) server = (result, after)) :
    ∃ visits pages fault, client.Walk server.answersAt edge visits pages fault ∧
      server.Serves visits after ∧ result = unlessFault (groupsOn pages) fault := by
  rw [outcome_allPages] at run
  exact course_of_listFrom (Nat.le_refl _) run

section

variable {answersAt : String → Bool} {responses : List Response}

theorem Course.unique {address : String} {pairs : List (String × String)}
    {visits others : List Server.Visit} {pages morePages : List Page}
    {fault otherFault : Option RemoteError}
    (course : client.Course answersAt address pairs visits pages fault)
    (other : client.Course answersAt address pairs others morePages otherFault)
    (left : visits.map (·.response) <+: responses)
    (right : others.map (·.response) <+: responses) :
    visits = others ∧ pages = morePages ∧ fault = otherFault := by
  -- By induction on the course: the first response is the same in both, and so is what follows it.
  induction course generalizing others morePages otherFault responses with
  | unreached nowhere => cases other <;> simp_all
  | failed asks fails =>
    cases responses with
    | nil => simp at left
    | cons response rest => cases other <;> simp_all [List.cons_prefix_cons, asks_iff]
  | last asks gives ends =>
    cases responses with
    | nil => simp at left
    | cons response rest => cases other <;> simp_all [List.cons_prefix_cons, asks_iff]
  | more asks gives goesOn course ih =>
    cases responses with
    | nil => simp at left
    | cons response rest =>
      cases other with
      | unreached nowhere => simp_all
      | failed => simp_all [List.cons_prefix_cons]
      | last => simp_all [List.cons_prefix_cons]
      | more asksToo givesToo goesOnToo also =>
        simp only [List.map_cons, List.cons_prefix_cons] at left right
        obtain ⟨rfl, left⟩ := left
        obtain ⟨rfl, right⟩ := right
        obtain rfl := asks.unique asksToo
        cases gives.symm.trans givesToo
        cases goesOn.symm.trans goesOnToo
        obtain ⟨rfl, rfl, rfl⟩ := ih also left right
        exact ⟨rfl, rfl, rfl⟩

theorem Walk.unique {edge : String} {visits others : List Server.Visit}
    {pages morePages : List Page} {fault otherFault : Option RemoteError}
    (walk : client.Walk answersAt edge visits pages fault)
    (other : client.Walk answersAt edge others morePages otherFault)
    (left : visits.map (·.response) <+: responses)
    (right : others.map (·.response) <+: responses) :
    visits = others ∧ pages = morePages ∧ fault = otherFault :=
  Course.unique walk other left right

theorem Gathering.unique {visits others : List Server.Visit}
    {result otherResult : Except RemoteError (List PrivacyGroup)}
    (gathering : client.Gathering answersAt visits result)
    (other : client.Gathering answersAt others otherResult)
    (left : visits.map (·.response) <+: responses)
    (right : others.map (·.response) <+: responses) :
    visits = others ∧ result = otherResult := by
  have start {first second : List Server.Visit}
      (whole : (first ++ second).map (·.response) <+: responses) :
      first.map (·.response) <+: responses := by
    rw [List.map_append] at whole
    exact (List.prefix_append _ _).trans whole
  -- Whether the first list fails does not depend on what comes after it.
  cases gathering with
  | memberFails member =>
    cases other with
    | memberFails also =>
      obtain ⟨rfl, -, same⟩ := member.unique also left right
      cases same
      exact ⟨rfl, rfl⟩
    | through also _ =>
      obtain ⟨-, -, differ⟩ := member.unique also left (start right)
      cases differ
  | through member owner =>
    cases other with
    | memberFails also =>
      obtain ⟨-, -, differ⟩ := member.unique also (start left) right
      cases differ
    | through also ownerToo =>
      obtain ⟨rfl, rfl, -⟩ := member.unique also (start left) (start right)
      obtain ⟨rest, rfl⟩ := start left
      rw [List.map_append, List.prefix_append_right_inj] at left right
      obtain ⟨rfl, rfl, rfl⟩ := owner.unique ownerToo left right
      exact ⟨rfl, rfl⟩

end

end Client

end SignalExchange
