import Mathlib.Data.List.Dedup
import SignalExchange.Proofs.Sorted
import SignalExchange.Proofs.ThreatExchange.Pages

/-! The groups of both lists, merged by identifier.

The second list adds the groups that are not there yet, each once. The first list is taken as it is,
so an identifier that it repeats is repeated in the result.
-/

set_option autoImplicit false

namespace SignalExchange

open Call

namespace Client

def withId (id : Int) (groups : List PrivacyGroup) : List PrivacyGroup :=
  groups.filter fun group => group.id = id

theorem mem_ids_iff {id : Int} {groups : List PrivacyGroup} :
    id ∈ groups.map (·.id) ↔ withId id groups ≠ [] := by
  simp [withId, List.filter_eq_nil_iff]

theorem count_ids (id : Int) (groups : List PrivacyGroup) :
    (groups.map (·.id)).count id = (withId id groups).length := by
  rw [List.count, List.countP_map, List.countP_eq_length_filter, withId]
  congr 1

theorem nodup_ids_iff (groups : List PrivacyGroup) :
    (groups.map (·.id)).Nodup ↔ ∀ id, (withId id groups).length ≤ 1 := by
  simp only [List.nodup_iff_count_le_one, count_ids]

/-! The second list -/

/-- The groups of an identifier after the second list was added: those of the first list, or else
the first one of the second. -/
theorem withId_added (id : Int) (member owner : List PrivacyGroup) :
    withId id (owner.foldl addUnknown member) =
      if withId id member = [] then (owner.find? fun group => group.id = id).toList
      else withId id member := by
  -- Each step may add to the first list, so that is general in the induction.
  induction owner generalizing member with
  | nil =>
    split
    next none => exact none
    next => rfl
  | cons group rest ih =>
    rw [List.foldl_cons, ih, addUnknown]
    by_cases known : group.id ∈ member.map (·.id)
    · have there : (member.any fun other => other.id = group.id) = true := by simpa using known
      rw [if_pos there]
      split
      next none =>
        have other : group.id ≠ id := fun same => mem_ids_iff.1 (same ▸ known) none
        rw [List.find?_cons_of_neg (by simpa using other)]
      next => rfl
    · have absent : ¬(member.any fun other => other.id = group.id) = true := by simpa using known
      rw [if_neg absent]
      by_cases sought : group.id = id
      · subst sought
        have none : withId group.id member = [] := by simpa [mem_ids_iff] using known
        have one : withId group.id (member ++ [group]) = [group] := by
          rw [withId, List.filter_append, ← withId, none]
          simp
        rw [one, if_neg (List.cons_ne_nil _ _), if_pos none, List.find?_cons_of_pos (by simp),
          Option.toList_some]
      · have same : withId id (member ++ [group]) = withId id member := by
          simp [withId, sought]
        rw [same, List.find?_cons_of_neg (by simpa using sought)]

/-! The order -/

theorem le_ids_trans (a b c : PrivacyGroup) (first : decide (a.id ≤ b.id) = true)
    (second : decide (b.id ≤ c.id) = true) : decide (a.id ≤ c.id) = true :=
  decide_eq_true (Int.le_trans (of_decide_eq_true first) (of_decide_eq_true second))

theorem le_ids_total (a b : PrivacyGroup) :
    (decide (a.id ≤ b.id) || decide (b.id ≤ a.id)) = true := by
  rw [Bool.or_eq_true, decide_eq_true_eq, decide_eq_true_eq]
  exact Int.le_total a.id b.id

theorem merge_sorted (member owner : List PrivacyGroup) :
    (merge member owner).Pairwise fun a b => a.id ≤ b.id := by
  have sorted := List.pairwise_mergeSort le_ids_trans le_ids_total (owner.foldl addUnknown member)
  exact sorted.imp of_decide_eq_true

theorem withId_merge (id : Int) (member owner : List PrivacyGroup) :
    withId id (merge member owner) = withId id (owner.foldl addUnknown member) := by
  refine filter_mergeSort le_ids_trans le_ids_total ?_
  refine List.pairwise_of_forall_mem_list fun a inGroups b also => ?_
  have left : a.id = id := by simpa using List.of_mem_filter inGroups
  have right : b.id = id := by simpa using List.of_mem_filter also
  rw [left, right]
  exact decide_eq_true (Int.le_refl id)

theorem withId_merge_member {id : Int} {member : List PrivacyGroup}
    (known : id ∈ member.map (·.id)) (owner : List PrivacyGroup) :
    withId id (merge member owner) = withId id member := by
  rw [withId_merge, withId_added, if_neg (mem_ids_iff.1 known)]

theorem withId_merge_owner {id : Int} {member : List PrivacyGroup}
    (unknown : id ∉ member.map (·.id)) (owner : List PrivacyGroup) :
    withId id (merge member owner) = (owner.find? fun group => group.id = id).toList := by
  rw [withId_merge, withId_added, if_pos (by simpa [mem_ids_iff] using unknown)]

theorem mem_ids_merge {id : Int} {member owner : List PrivacyGroup} :
    id ∈ (merge member owner).map (·.id) ↔ id ∈ member.map (·.id) ∨ id ∈ owner.map (·.id) := by
  by_cases known : id ∈ member.map (·.id)
  · rw [mem_ids_iff, withId_merge_member known, ← mem_ids_iff]
    simp [known]
  · rw [mem_ids_iff, withId_merge_owner known]
    simp [known, Option.toList_eq_nil_iff]

theorem nodup_ids_merge_iff (member owner : List PrivacyGroup) :
    ((merge member owner).map (·.id)).Nodup ↔ (member.map (·.id)).Nodup := by
  rw [nodup_ids_iff, nodup_ids_iff]
  refine forall_congr' fun id => ?_
  by_cases known : id ∈ member.map (·.id)
  · rw [withId_merge_member known]
  · have none : withId id member = [] := by simpa [mem_ids_iff] using known
    rw [withId_merge_owner known, none]
    exact iff_of_true Option.length_toList_le (Nat.zero_le _)

theorem merge_strict_iff (member owner : List PrivacyGroup) :
    ((merge member owner).Pairwise fun a b => a.id < b.id) ↔ (member.map (·.id)).Nodup := by
  rw [← nodup_ids_merge_iff member owner, List.Nodup, List.pairwise_map]
  constructor
  · intro strict
    exact strict.imp Int.ne_of_lt
  · intro distinct
    exact (merge_sorted member owner).imp₂ (fun _ _ below differs => by omega) distinct

theorem privacyGroups_eq_ok {client : Client} {server after : Server}
    {groups : List PrivacyGroup} :
    outcome client.privacyGroups server = (.ok groups, after) ↔ ∃ member owner middle,
      outcome (client.allPages memberEdge) server = (.ok member, middle) ∧
      outcome (client.allPages ownerEdge) middle = (.ok owner, after) ∧
      groups = merge member owner := by
  simp only [privacyGroups, outcome_bind_eq_ok, outcome_pure]
  constructor
  · intro done
    obtain ⟨member, middle, first, owner, _, second, same⟩ := done
    cases same
    exact ⟨member, owner, middle, first, second, rfl⟩
  · intro done
    obtain ⟨member, owner, middle, first, second, rfl⟩ := done
    exact ⟨member, middle, first, owner, after, second, rfl⟩

theorem outcome_privacyGroups {client : Client} {server : Server}
    {member owner : List PrivacyGroup}
    (first : (outcome (client.allPages memberEdge) server).1 = .ok member)
    (second : (outcome (client.allPages ownerEdge)
      (outcome (client.allPages memberEdge) server).2).1 = .ok owner) :
    outcome client.privacyGroups server = (.ok (merge member owner),
      (outcome (client.allPages ownerEdge) (outcome (client.allPages memberEdge) server).2).2) :=
  privacyGroups_eq_ok.2 ⟨member, owner, _, Prod.ext first rfl, Prod.ext second rfl, rfl⟩

end Client

/-- The groups are those of both lists by identifier. They ascend strictly exactly when the pages of
the first list repeat no identifier, and those of the second list make no difference to that. -/
theorem privacyGroups_strict_iff {client : Client} {server after : Server}
    {groups : List PrivacyGroup}
    (done : outcome client.privacyGroups server = (.ok groups, after)) :
    ∃ member owner middle,
      client.Lists Client.memberEdge server member middle ∧
      client.Lists Client.ownerEdge middle owner after ∧
      (∃ given, server.responses = given ++ after.responses ∧
        List.Forall₂ Client.Gives given (member ++ owner)) ∧
      ((groups.Pairwise fun a b => a.id < b.id) ↔
        ((Client.groupsOn member).map (·.id)).Nodup) ∧
      (groups.Pairwise fun a b => a.id ≤ b.id) ∧
      (∀ id, id ∈ groups.map (·.id) ↔
        id ∈ (Client.groupsOn member).map (·.id) ∨ id ∈ (Client.groupsOn owner).map (·.id)) ∧
      (∀ id ∈ (Client.groupsOn member).map (·.id),
        Client.withId id groups = Client.withId id (Client.groupsOn member)) ∧
      ∀ id ∉ (Client.groupsOn member).map (·.id), Client.withId id groups =
        ((Client.groupsOn owner).find? fun group => group.id = id).toList := by
  -- The second list starts from the server that the first one left.
  obtain ⟨_, _, middle, first, second, rfl⟩ := Client.privacyGroups_eq_ok.1 done
  obtain ⟨member, lists, rfl⟩ := Client.allPages_eq_ok.1 first
  obtain ⟨owner, also, rfl⟩ := Client.allPages_eq_ok.1 second
  obtain ⟨given, responses, each⟩ := lists.given
  obtain ⟨more, others, eachOther⟩ := also.given
  refine ⟨member, owner, middle, lists, also, ⟨given ++ more, ?_, ?_⟩,
    Client.merge_strict_iff _ _, Client.merge_sorted _ _, fun id => Client.mem_ids_merge,
    fun id known => Client.withId_merge_member known _,
    fun id unknown => Client.withId_merge_owner unknown _⟩
  · rw [responses, others, List.append_assoc]
  · exact List.rel_append each eachOther

def demoClient : Client := ⟨"1|a", "http://oracle.test"⟩

def groupCalled (id : Int) (name : String) : PrivacyGroup := ⟨id, name, "", false⟩

/-- The first list has two pages. The second repeats a group of the first list, and one of its
own. -/
def overlapping : Server :=
  { answersAt := (· = "http://oracle.test")
    responses := [
      .answer 200 ("\x7b\"data\":[\x7b\"id\":\"2\",\"name\":\"m\"\x7d]," ++
        "\"paging\":\x7b\"next\":\"http://oracle.test/p\"\x7d\x7d"),
      .answer 200 "\x7b\"data\":[\x7b\"id\":7,\"name\":\"m\"\x7d]\x7d",
      .answer 200 ("\x7b\"data\":[\x7b\"id\":\"7\",\"name\":\"o\"\x7d," ++
        "\x7b\"id\":9,\"name\":\"o\"\x7d,\x7b\"id\":9,\"name\":\"again\"\x7d]\x7d")]
    requests := [] }

/-- Groups that only the second list repeats are given once. -/
theorem overlapping_strict : ∃ member owner middle after,
    outcome demoClient.privacyGroups overlapping =
      (.ok [groupCalled 2 "m", groupCalled 7 "m", groupCalled 9 "o"], after) ∧
    demoClient.Lists Client.memberEdge overlapping member middle ∧
    demoClient.Lists Client.ownerEdge middle owner after ∧
    ((Client.groupsOn member).map (·.id)).Nodup ∧
    ∀ id, id ∈ [2, 7, 9] ↔
      id ∈ (Client.groupsOn member).map (·.id) ∨ id ∈ (Client.groupsOn owner).map (·.id) := by
  have done : ∃ after, outcome demoClient.privacyGroups overlapping =
      (.ok (Client.merge [groupCalled 2 "m", groupCalled 7 "m"]
        [groupCalled 7 "o", groupCalled 9 "o", groupCalled 9 "again"]), after) :=
    ⟨_, Client.outcome_privacyGroups (by decide +kernel) (by decide +kernel)⟩
  have merged : Client.merge [groupCalled 2 "m", groupCalled 7 "m"]
      [groupCalled 7 "o", groupCalled 9 "o", groupCalled 9 "again"] =
        [groupCalled 2 "m", groupCalled 7 "m", groupCalled 9 "o"] :=
    List.mergeSort_of_pairwise (by decide)
  obtain ⟨after, done⟩ := done
  rw [merged] at done
  obtain ⟨member, owner, middle, lists, also, -, strict, -, ids, -⟩ :=
    privacyGroups_strict_iff done
  exact ⟨member, owner, middle, _, done, lists, also, strict.1 (by decide), ids⟩

/-- The first list names the same group twice. -/
def repeating : Server :=
  { answersAt := (· = "http://oracle.test")
    responses := [
      .answer 200 ("\x7b\"data\":[\x7b\"id\":\"1\",\"name\":\"a\"\x7d," ++
        "\x7b\"id\":\"1\",\"name\":\"a\"\x7d]\x7d"),
      .answer 200 "\x7b\"data\":[]\x7d"]
    requests := [] }

/-- A group that the first list repeats is repeated in the result. -/
theorem repeated_in_result : ∃ after,
    outcome demoClient.privacyGroups repeating =
      (.ok [groupCalled 1 "a", groupCalled 1 "a"], after) ∧
    ¬[groupCalled 1 "a", groupCalled 1 "a"].Pairwise fun a b => a.id < b.id := by
  have merged : Client.merge [groupCalled 1 "a", groupCalled 1 "a"] [] =
      [groupCalled 1 "a", groupCalled 1 "a"] := List.mergeSort_of_pairwise (by decide)
  rw [← merged]
  exact ⟨_, Client.outcome_privacyGroups (by decide +kernel) (by decide +kernel), by
    rw [merged]
    decide⟩

end SignalExchange
