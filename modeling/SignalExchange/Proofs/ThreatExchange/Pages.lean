import SignalExchange.Proofs.ThreatExchange.Fetch

/-! The pages of a list of privacy groups.

A list is its first page and the pages that follow one another by their addresses, up to the first
page that names no other. Each page takes one response, so the responses that are left are enough
for all pages that can follow.
-/

set_option autoImplicit false

namespace SignalExchange

open Call

namespace Client

variable {client : Client} {server after : Server}

/-- The pages that follow a page, each at the address that the page before it names. -/
inductive Follows (client : Client) : Page → Server → List Page → Server → Prop where
  | last {page : Page} {server : Server} (ends : page.next = none) :
      Follows client page server [] server
  | more {page next : Page} {address : String} {server middle after : Server} {pages : List Page}
      (goesOn : page.next = some address)
      (fetched : outcome (client.fetch Page.read address []) server = (.ok next, middle))
      (rest : Follows client next middle pages after) :
      Follows client page server (next :: pages) after

/-- The pages of a list, from the first to the one that names no other. -/
def Lists (client : Client) (edge : String) (server : Server) (pages : List Page)
    (after : Server) : Prop :=
  ∃ first rest middle,
    outcome (client.fetch Page.read (client.baseUrl ++ "/" ++ edge) groupFields) server =
      (.ok first, middle) ∧
    client.Follows first middle rest after ∧ pages = first :: rest

def groupsOn (pages : List Page) : List PrivacyGroup := pages.flatMap (·.groups)

/-- The response is a success, and its body holds the page. -/
def Gives (response : Response) (page : Page) : Prop :=
  ∃ code body, response = .answer code body ∧ isSuccess code = true ∧
    Page.read (bodyText body) = .ok page

theorem fetch_gives {address : String} {pairs : List (String × String)} {page : Page}
    (fetched : outcome (client.fetch Page.read address pairs) server = (.ok page, after)) :
    ∃ response, server.responses = response :: after.responses ∧ Gives response page := by
  rw [outcome_fetch] at fetched
  cases asks : client.request? server.answersAt address pairs with
  | none => simp [asks] at fetched
  | some request =>
    simp only [asks, Prod.mk.injEq] at fetched
    obtain ⟨holds, rfl⟩ := fetched
    exact ⟨_, Server.responses_of_next holds request, Response.value_eq_ok.1 holds⟩

theorem length_lt_of_fetch {address : String} {pairs : List (String × String)} {page : Page}
    (fetched : outcome (client.fetch Page.read address pairs) server = (.ok page, after)) :
    after.responses.length < server.responses.length := by
  obtain ⟨response, responses, -⟩ := fetch_gives fetched
  simp [responses]

theorem Follows.given {page : Page} {pages : List Page}
    (follows : client.Follows page server pages after) :
    ∃ given, server.responses = given ++ after.responses ∧ List.Forall₂ Gives given pages := by
  induction follows with
  | last => exact ⟨[], rfl, .nil⟩
  | more goesOn fetched rest ih =>
    obtain ⟨response, responses, gives⟩ := fetch_gives fetched
    obtain ⟨given, others, each⟩ := ih
    exact ⟨response :: given, by rw [responses, others, List.cons_append], .cons gives each⟩

theorem Lists.given {edge : String} {pages : List Page}
    (lists : client.Lists edge server pages after) :
    ∃ given, server.responses = given ++ after.responses ∧ List.Forall₂ Gives given pages := by
  obtain ⟨first, rest, middle, fetched, follows, rfl⟩ := lists
  obtain ⟨response, responses, gives⟩ := fetch_gives fetched
  obtain ⟨given, others, each⟩ := follows.given
  exact ⟨response :: given, by rw [responses, others, List.cons_append], .cons gives each⟩

theorem follow_last {page : Page} (ends : page.next = none) (fuel : Nat) :
    client.follow fuel page = pure page.groups := by
  unfold follow
  simp only [ends]

theorem follow_more {page : Page} {address : String} (goesOn : page.next = some address)
    (fuel : Nat) :
    client.follow (fuel + 1) page = (client.fetch Page.read address [] >>= fun next =>
      client.follow fuel next >>= fun groups => pure (page.groups ++ groups)) := by
  rw [follow.eq_def]
  simp only [goesOn]

theorem follows_last_iff {page : Page} (ends : page.next = none) {pages : List Page} :
    client.Follows page server pages after ↔ pages = [] ∧ after = server := by
  constructor
  · intro follows
    cases follows with
    | last => exact ⟨rfl, rfl⟩
    | more goesOn => cases ends.symm.trans goesOn
  · intro both
    obtain ⟨rfl, rfl⟩ := both
    exact .last ends

theorem follows_more_iff {page : Page} {address : String} (goesOn : page.next = some address)
    {pages : List Page} :
    client.Follows page server pages after ↔ ∃ next rest middle,
      outcome (client.fetch Page.read address []) server = (.ok next, middle) ∧
        client.Follows next middle rest after ∧ pages = next :: rest := by
  constructor
  · intro follows
    cases follows with
    | last ends => cases ends.symm.trans goesOn
    | more names fetched rest =>
      cases goesOn.symm.trans names
      exact ⟨_, _, _, fetched, rest, rfl⟩
  · intro found
    obtain ⟨next, rest, middle, fetched, follows, rfl⟩ := found
    exact .more goesOn fetched follows

theorem follow_eq_ok {fuel : Nat} {page : Page} {groups : List PrivacyGroup}
    (enough : server.responses.length ≤ fuel) :
    outcome (client.follow fuel page) server = (.ok groups, after) ↔
      ∃ pages, client.Follows page server pages after ∧ groups = groupsOn (page :: pages) := by
  -- The fuel goes down with the responses, one for each page.
  induction fuel generalizing page server groups with
  | zero =>
    cases next : page.next with
    | none => simp [follow_last next, follows_last_iff next, groupsOn, eq_comm, and_comm]
    | some address =>
      have spent : outcome (client.follow 0 page) server = (.error .transport, server) := by
        unfold follow
        simp only [next, outcome_throw]
      rw [spent]
      constructor
      · intro same
        cases same
      · intro found
        obtain ⟨pages, follows, -⟩ := found
        obtain ⟨_, _, middle, fetched, -, -⟩ := (follows_more_iff next).1 follows
        exact absurd (Nat.lt_of_lt_of_le (length_lt_of_fetch fetched) enough) (Nat.not_lt_zero _)
  | succ fuel ih =>
    cases next : page.next with
    | none => simp [follow_last next, follows_last_iff next, groupsOn, eq_comm, and_comm]
    | some address =>
      rw [follow_more next, outcome_bind_eq_ok]
      simp only [follows_more_iff next, outcome_bind_eq_ok, outcome_pure]
      constructor
      · intro found
        obtain ⟨second, middle, fetched, others, _, followed, same⟩ := found
        cases same
        have fewer := Nat.le_of_lt_succ (Nat.lt_of_lt_of_le (length_lt_of_fetch fetched) enough)
        obtain ⟨rest, follows, rfl⟩ := (ih fewer).1 followed
        exact ⟨second :: rest, ⟨second, rest, middle, fetched, follows, rfl⟩, rfl⟩
      · intro found
        obtain ⟨_, ⟨second, rest, middle, fetched, follows, rfl⟩, rfl⟩ := found
        have fewer := Nat.le_of_lt_succ (Nat.lt_of_lt_of_le (length_lt_of_fetch fetched) enough)
        exact ⟨second, middle, fetched, _, after, (ih fewer).2 ⟨rest, follows, rfl⟩, rfl⟩

/-- The fuel of the loop is the number of responses before the first request. -/
theorem outcome_allPages (client : Client) (edge : String) (server : Server) :
    outcome (client.allPages edge) server =
      outcome (client.fetch Page.read (client.baseUrl ++ "/" ++ edge) groupFields >>=
        client.follow server.responses.length) server := by
  rw [allPages, outcome_bind, outcome_get]

theorem allPages_eq_ok {edge : String} {groups : List PrivacyGroup} :
    outcome (client.allPages edge) server = (.ok groups, after) ↔
      ∃ pages, client.Lists edge server pages after ∧ groups = groupsOn pages := by
  rw [outcome_allPages, outcome_bind_eq_ok]
  constructor
  · intro found
    obtain ⟨first, middle, fetched, followed⟩ := found
    have enough := Nat.le_of_lt (length_lt_of_fetch fetched)
    obtain ⟨rest, follows, same⟩ := (follow_eq_ok enough).1 followed
    exact ⟨first :: rest, ⟨first, rest, middle, fetched, follows, rfl⟩, same⟩
  · intro found
    obtain ⟨_, ⟨first, rest, middle, fetched, follows, rfl⟩, same⟩ := found
    have enough := Nat.le_of_lt (length_lt_of_fetch fetched)
    exact ⟨first, middle, fetched, (follow_eq_ok enough).2 ⟨rest, follows, same⟩⟩

end Client

end SignalExchange
