import Mathlib.Data.List.Chain
import Mathlib.Logic.Relation
import SignalExchange.Proofs.ThreatExchange.Course
import SignalExchange.Proofs.ThreatExchange.Merge

/-! Pages that lead back.

A client keeps no record of the pages that it has asked for: only the page just received says what
comes next. On a site with one response for each request, the pages of a list are therefore asked
for once each if they lead to no cycle, and round and round if they do.
-/

set_option autoImplicit false

namespace SignalExchange

open Call Relation

section

variable {α : Type} {r : α → α → Prop}

/-- Whatever a cycle leads to leads back into it, where an item leads to one other at most. -/
theorem transGen_of_cycle (only : Relator.RightUnique r) {item other : α}
    (cycle : TransGen r item item) (reached : ReflTransGen r item other) :
    TransGen r other item := by
  induction reached with
  | refl => exact cycle
  | tail _ onward ih =>
    obtain ⟨next, also, back⟩ := TransGen.head'_iff.1 ih
    rw [only onward also]
    exact TransGen.trans_right back cycle

/-- A way into a cycle never ends. -/
theorem exists_next_of_cycle (only : Relator.RightUnique r) {start item other : α}
    (here : ReflTransGen r start item) (cycle : TransGen r item item)
    (reached : ReflTransGen r start other) : ∃ next, r other next := by
  have back : TransGen r other item := by
    cases ReflTransGen.total_of_right_unique only here reached with
    | inl after => exact transGen_of_cycle only cycle after
    | inr before => exact TransGen.trans_right before cycle
  obtain ⟨next, onward, -⟩ := TransGen.head'_iff.1 back
  exact ⟨next, onward⟩

theorem reached_of_isChain {start item : α} {items : List α} (chain : (start :: items).IsChain r)
    (there : item ∈ start :: items) : ReflTransGen r start item := by
  have pairs := List.isChain_iff_pairwise.1 (chain.imp fun _ _ => ReflTransGen.single)
  obtain rfl | later := List.mem_cons.1 there
  · exact .refl
  · exact (List.pairwise_cons.1 pairs).1 item later

theorem nodup_of_isChain {items : List α} (chain : items.IsChain r)
    (acyclic : ∀ item ∈ items, ¬TransGen r item item) : items.Nodup := by
  have pairs := List.isChain_iff_pairwise.1 (chain.imp fun _ _ => TransGen.single)
  refine pairs.imp_of_mem fun {first second} there _ leads same => ?_
  subst same
  exact acyclic first there leads

end

namespace Client

/-- What a response makes a client ask for next, if it names an address by which the server can be
asked. -/
def onward? (client : Client) (answersAt : String → Bool) (response : Response) : Option Url :=
  match response.value Page.read with
  | .ok page => page.next.bind fun link => client.request? answersAt link []
  | .error _ => none

/-- Requests from a first one on, each for what the response before it leads to, up to one that leads
nowhere. -/
structure Trail (client : Client) (answersAt : String → Bool) (start : Option Url)
    (visits : List Server.Visit) : Prop where
  start : visits.head?.map (·.request) = start
  chain : visits.IsChain fun visit next =>
    client.onward? answersAt visit.response = some next.request
  ends : ∀ visit ∈ visits.getLast?, client.onward? answersAt visit.response = none

variable {client : Client} {answersAt : String → Bool}

theorem onward?_page (client : Client) (answersAt : String → Bool) {response : Response}
    {page : Page} (gives : response.value Page.read = .ok page) : client.onward? answersAt response =
      page.next.bind fun link => client.request? answersAt link [] := by
  simp [onward?, gives]

theorem Course.trail {address : String} {pairs : List (String × String)}
    {visits : List Server.Visit} {pages : List Page} {fault : Option RemoteError}
    (course : client.Course answersAt address pairs visits pages fault) :
    client.Trail answersAt (client.request? answersAt address pairs) visits := by
  induction course with
  | unreached nowhere => exact ⟨(not_asks_iff.1 nowhere).symm, by simp, by simp⟩
  | failed asks fails => exact ⟨(asks_iff.1 asks).symm, by simp, by simp [onward?, fails]⟩
  | last asks gives ends =>
    exact ⟨(asks_iff.1 asks).symm, by simp, by simp [onward?_page _ _ gives, ends]⟩
  | @more _ _ _ _ _ _ visits _ _ asks gives goesOn _ ih =>
    have onward := onward?_page client answersAt gives
    rw [goesOn, Option.bind_some, ← ih.start] at onward
    have asks := (asks_iff.1 asks).symm
    cases visits with
    | nil => exact ⟨asks, by simp, by simp [onward]⟩
    | cons next rest =>
      refine ⟨asks, List.isChain_cons_cons.2 ⟨onward, ih.chain⟩, ?_⟩
      rw [List.getLast?_cons_cons]
      exact ih.ends

/-! Sites with one response for each request -/

def start? (client : Client) (answersAt : String → Bool) (edge : String) : Option Url :=
  client.request? answersAt (client.baseUrl ++ "/" ++ edge) groupFields

/-- What a request leads to on a site. -/
def Leads (client : Client) (answersAt : String → Bool) (site : Url → Response)
    (request next : Url) : Prop :=
  client.onward? answersAt (site request) = some next

theorem leads_rightUnique (client : Client) (answersAt : String → Bool) (site : Url → Response) :
    Relator.RightUnique (client.Leads answersAt site) :=
  fun _ _ _ left right => Option.some.inj (left.symm.trans right)

/-- The requests that a first one leads to, itself included. -/
def Reaches (client : Client) (answersAt : String → Bool) (start : Option Url)
    (site : Url → Response) (request : Url) : Prop :=
  ∃ first ∈ start, ReflTransGen (client.Leads answersAt site) first request

/-- What a first request leads to leads back to itself at some point. -/
def Circular (client : Client) (answersAt : String → Bool) (start : Option Url)
    (site : Url → Response) : Prop :=
  ∃ request, client.Reaches answersAt start site request ∧
    TransGen (client.Leads answersAt site) request request

end Client

/-- The responses of the server are those of a site, as far as they were given. -/
def Server.Plays (server : Server) (site : Url → Response) (visits : List Server.Visit) : Prop :=
  ∀ visit ∈ visits.take server.responses.length, visit.response = site visit.request

theorem Server.Serves.plays_const {server after : Server} {visits : List Server.Visit}
    {answer : Response} (serves : server.Serves visits after)
    (same : ∀ response ∈ server.responses, response = answer) :
    server.Plays (fun _ => answer) visits := by
  intro visit there
  have first := serves.isPrefix.take server.responses.length
  rw [← List.map_take, List.take_append_of_le_length (Nat.le_refl _), List.take_length] at first
  exact same _ (first.subset (List.mem_map_of_mem there))

namespace Client

variable {client : Client} {answersAt : String → Bool} {start : Option Url} {server : Server}
  {site : Url → Response} {visits : List Server.Visit}

theorem Trail.isChain (trail : client.Trail answersAt start visits)
    (plays : server.Plays site visits) (most : visits.length ≤ server.responses.length + 1) :
    (visits.map (·.request)).IsChain (client.Leads answersAt site) := by
  rw [List.isChain_map, List.isChain_iff_getElem]
  intro i more
  have given : visits[i] ∈ visits.take server.responses.length :=
    List.mem_take_iff_getElem.2 ⟨i, by omega, rfl⟩
  have onward := List.isChain_iff_getElem.1 trail.chain i more
  rw [plays _ given] at onward
  exact onward

theorem Trail.reaches (trail : client.Trail answersAt start visits)
    (plays : server.Plays site visits) (most : visits.length ≤ server.responses.length + 1) :
    ∀ request ∈ visits.map (·.request), client.Reaches answersAt start site request := by
  intro request there
  have chain := trail.isChain plays most
  have first := trail.start
  cases visits with
  | nil => simp at there
  | cons visit rest =>
    rw [List.map_cons] at chain there
    exact ⟨visit.request, first.symm, reached_of_isChain chain there⟩

theorem Trail.nodup (trail : client.Trail answersAt start visits)
    (plays : server.Plays site visits) (most : visits.length ≤ server.responses.length + 1)
    (acyclic : ¬client.Circular answersAt start site) : (visits.map (·.request)).Nodup :=
  nodup_of_isChain (trail.isChain plays most) fun request there cycle =>
    acyclic ⟨request, trail.reaches plays most request there, cycle⟩

theorem Trail.goes_round (trail : client.Trail answersAt start visits)
    (plays : server.Plays site visits) (most : visits.length ≤ server.responses.length + 1)
    (circular : client.Circular answersAt start site) :
    visits.length = server.responses.length + 1 := by
  by_contra short
  obtain ⟨request, ⟨first, begins, here⟩, cycle⟩ := circular
  have head := trail.start.trans begins
  cases last : visits.getLast? with
  | none => simp [List.getLast?_eq_none_iff.1 last] at head
  | some final =>
    have there : final ∈ visits := List.mem_of_getLast? last
    have given : final.response = site final.request := by
      apply plays
      rwa [List.take_of_length_le (by omega)]
    obtain ⟨_, also, reached⟩ := trail.reaches plays most _ (List.mem_map_of_mem there)
    cases begins.symm.trans also
    -- The last response was the site's, so the cycle goes on from there.
    obtain ⟨next, onward⟩ :=
      exists_next_of_cycle (leads_rightUnique client answersAt site) here cycle reached
    have nowhere := trail.ends final last
    rw [given] at nowhere
    cases nowhere.symm.trans onward

end Client

/-- Listing goes from request to request as the responses lead, up to the first that leads nowhere,
and asks once at most when no response is left. So on a site with one response for each request, a
client makes no request twice if its list leads to no cycle, and then stops after as many as the
list leads to at most; otherwise it goes on for as long as the server answers. -/
theorem listing_repeats_only_on_cycles (client : Client) (edge : String) (server : Server) :
    ∃ visits, server.Serves visits (outcome (client.allPages edge) server).2 ∧
      client.Trail server.answersAt (client.start? server.answersAt edge) visits ∧
      visits.length ≤ server.responses.length + 1 ∧
      ∀ site, server.Plays site visits →
        (¬client.Circular server.answersAt (client.start? server.answersAt edge) site →
          (visits.map (·.request)).Nodup ∧
          ∀ known : List Url,
            (∀ request, client.Reaches server.answersAt (client.start? server.answersAt edge) site
              request → request ∈ known) →
            visits.length ≤ known.length) ∧
        (client.Circular server.answersAt (client.start? server.answersAt edge) site →
          visits.length = server.responses.length + 1) := by
  obtain ⟨visits, pages, fault, walk, serves, -⟩ :=
    Client.walk_of_allPages (Prod.eta (outcome (client.allPages edge) server)).symm
  have trail := Client.Course.trail walk
  have most := serves.length_le
  refine ⟨visits, serves, trail, most, fun site plays => ⟨fun acyclic => ?_, fun circular => ?_⟩⟩
  · have distinct := trail.nodup plays most acyclic
    refine ⟨distinct, fun known all => ?_⟩
    have within := distinct.length_le_of_subset fun request there =>
      all request (trail.reaches plays most request there)
    rwa [List.length_map] at within
  · exact trail.goes_round plays most circular

/-- A page whose next is a second one. As the response to everything, it leads from the first page
of a list to the second, and from there to the second again. -/
def leadingBack : Response :=
  .answer 200 "\x7b\"data\":[],\"paging\":\x7b\"next\":\"http://oracle.test/p\"\x7d\x7d"

/-- A server that gives the page to three requests. -/
def circling : Server :=
  ⟨(· = "http://oracle.test"), List.replicate 3 leadingBack, []⟩

/-- While it gives the page, it is asked for the second one, and once more after that. -/
theorem circling_asked_again :
    (outcome (demoClient.allPages Client.memberEdge) circling).2.requests.length = 4 := by
  obtain ⟨visits, serves, -, -, sited⟩ :=
    listing_repeats_only_on_cycles demoClient Client.memberEdge circling
  have plays : circling.Plays (fun _ => leadingBack) visits :=
    serves.plays_const fun response => List.eq_of_mem_replicate
  have asks : (demoClient.start? circling.answersAt Client.memberEdge).isSome := by decide +kernel
  obtain ⟨first, begins⟩ := Option.isSome_iff_exists.1 asks
  have leads : demoClient.onward? circling.answersAt leadingBack =
      some ⟨"http://oracle.test", "/p", some "access_token=1%7Ca"⟩ := by
    decide +kernel
  have onward (request : Url) : demoClient.Leads circling.answersAt (fun _ => leadingBack) request
      ⟨"http://oracle.test", "/p", some "access_token=1%7Ca"⟩ := leads
  have asked := (sited _ plays).2 ⟨_, ⟨first, begins, .single (onward first)⟩, .single (onward _)⟩
  rw [serves.requests, List.length_append, List.length_map, asked]
  rfl

/-- The second page is asked for twice, even where the list ends after that. -/
theorem listing_asks_again :
    let after := outcome (demoClient.allPages Client.memberEdge)
      ⟨(· = "http://oracle.test"),
        [leadingBack, leadingBack, .answer 200 "\x7b\"data\":[]\x7d"], []⟩
    after.1 = .ok [] ∧ ¬after.2.requests.Nodup := by
  decide +kernel

end SignalExchange
