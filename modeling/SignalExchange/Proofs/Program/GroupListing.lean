import SignalExchange.Proofs.Program.Import
import SignalExchange.Proofs.Sorted
import SignalExchange.Proofs.Text.ByteOrder
import SignalExchange.Proofs.ThreatExchange.Merge

/-! The groups that a listing shows.

The groups arrive in the order of their identifiers and are sorted by name, so groups of one name
stay in the order of their identifiers. A line break in a name or a description is shown as a blank,
so a line break of the listing always ends a group.
-/

set_option autoImplicit false

namespace SignalExchange

open Call

namespace Listing

/-! Lines -/

theorem toList_lines (texts : List String) :
    (lines texts).toList = texts.flatMap fun text => text.toList ++ ['\n'] := by
  rw [lines, String.toList_join, List.flatMap_map]
  simp

theorem splitOn_lines {texts : List String} (whole : ∀ text ∈ texts, '\n' ∉ text.toList) :
    (lines texts).toList.splitOn '\n' = texts.map String.toList ++ [[]] := by
  rw [toList_lines]
  induction texts with
  | nil => simp
  | cons text rest ih =>
    rw [List.forall_mem_cons] at whole
    rw [List.flatMap_cons, List.append_assoc, List.singleton_append,
      List.splitOn_append_cons_self_of_not_mem whole.1, ih whole.2]
    rfl

theorem count_lines_eq_add (texts : List String) : (lines texts).toList.count '\n' =
    texts.length + (texts.map fun text => text.toList.count '\n').sum := by
  rw [toList_lines]
  induction texts with
  | nil => rfl
  | cons text rest ih =>
    rw [List.flatMap_cons, List.count_append, ih, List.count_append, List.map_cons, List.sum_cons,
      List.length_cons]
    simp only [List.count_singleton_self]
    omega

theorem count_lines_iff {texts : List String} :
    (lines texts).toList.count '\n' = texts.length ↔ ∀ text ∈ texts, '\n' ∉ text.toList := by
  rw [count_lines_eq_add, Nat.add_eq_left, List.sum_eq_zero_iff, List.forall_mem_map]
  simp only [List.count_eq_zero]

theorem count_lines {texts : List String} (whole : ∀ text ∈ texts, '\n' ∉ text.toList) :
    (lines texts).toList.count '\n' = texts.length := count_lines_iff.2 whole

/-! The line of a group -/

def unbroken (text : String) : List Char := text.toList.map fun c => if c = '\n' then ' ' else c

def groupLine (group : PrivacyGroup) : List Char :=
  Integer.text group.id ++ ' ' :: unbroken group.name ++ " - ".toList ++ unbroken group.description

theorem lineBreak_notMem_integerText (n : Int) : '\n' ∉ Integer.text n := by
  intro member
  rcases Json.mem_integerText _ member with minus | digit
  · cases minus
  · cases digit

theorem toList_group (group : PrivacyGroup) : (Listing.group group).toList = groupLine group := by
  have digits : (Integer.text group.id).map (fun c => if c = '\n' then ' ' else c) =
      Integer.text group.id := by
    refine (List.map_congr_left fun c member => if_neg ?_).trans (List.map_id _)
    rintro rfl
    exact lineBreak_notMem_integerText group.id member
  simp [Listing.group, groupLine, unbroken, digits]

theorem lineBreak_notMem_group (group : PrivacyGroup) : '\n' ∉ (Listing.group group).toList := by
  simp only [Listing.group, String.toList_ofList, List.mem_map, not_exists, not_and]
  intro c _
  split
  · decide
  · assumption

/-! The order -/

theorem le_names_trans (a b c : PrivacyGroup) (first : decide (a.name ≤ b.name) = true)
    (second : decide (b.name ≤ c.name) = true) : decide (a.name ≤ c.name) = true :=
  decide_eq_true (String.le_trans (of_decide_eq_true first) (of_decide_eq_true second))

theorem le_names_total (a b : PrivacyGroup) :
    (decide (a.name ≤ b.name) || decide (b.name ≤ a.name)) = true := by
  rw [Bool.or_eq_true, decide_eq_true_eq, decide_eq_true_eq]
  exact String.le_total a.name b.name

/-- The group stands before the other in a listing, or the two are shown alike. -/
def Precedes (a b : PrivacyGroup) : Prop :=
  textBytes a.name < textBytes b.name ∨ a.name = b.name ∧ a.id ≤ b.id

instance (a b : PrivacyGroup) : Decidable (Precedes a b) := inferInstanceAs (Decidable (_ ∨ _))

theorem precedes_of_le {a b : PrivacyGroup} (below : a.name ≤ b.name)
    (tie : b.name ≤ a.name → a.id ≤ b.id) : Precedes a b := by
  by_cases above : b.name ≤ a.name
  · exact .inr ⟨String.le_antisymm below above, tie above⟩
  · exact .inl ((textBytes_lt_iff _ _).2 (String.not_le.1 above))

/-- The groups of a listing. -/
def shown (groups : List PrivacyGroup) : List PrivacyGroup :=
  (groups.filter (·.updatesEnabled)).mergeSort fun a b => a.name ≤ b.name

theorem groups_eq (groups : List PrivacyGroup) :
    Listing.groups groups = lines ((shown groups).map Listing.group) := rfl

theorem shown_perm (groups : List PrivacyGroup) :
    (shown groups).Perm (groups.filter (·.updatesEnabled)) :=
  List.mergeSort_perm _ _

theorem shown_ordered {groups : List PrivacyGroup}
    (byId : groups.Pairwise fun a b => a.id ≤ b.id) : (shown groups).Pairwise Precedes := by
  refine (pairwise_mergeSort_and le_names_trans le_names_total
    (byId.filter (·.updatesEnabled))).imp fun {a b} both => ?_
  exact precedes_of_le (of_decide_eq_true both.1) fun above => both.2 (decide_eq_true above)

end Listing

namespace Program

open CommandM

theorem listGroups_eq_ok {environment : Environment} {session after : Session} {text : String}
    (done : outcome (listGroups environment) session = (.ok text, after)) :
    ∃ token groups server, session.database.StoresToken token ∧
      outcome (Client.mk token (baseUrl environment)).privacyGroups session.server =
        (.ok groups, server) ∧
      text = Listing.groups groups ∧ after = ⟨session.database, server⟩ := by
  rw [listGroups, outcome_bind] at done
  rcases client_cases environment session with ⟨token, stored, -, made⟩ | ⟨-, error, failed⟩
  · rw [made] at done
    dsimp only at done
    rw [outcome_bind, outcome_onServer] at done
    rcases ran : outcome (Client.mk token (baseUrl environment)).privacyGroups session.server with
      ⟨result, server⟩
    rw [ran] at done
    cases result with
    | error error => cases done
    | ok groups =>
      cases done
      exact ⟨token, groups, server, stored, ran, rfl, rfl⟩
  · rw [failed] at done
    cases done

/-- A listing of groups that succeeds prints one line for each group with updates and nothing else,
by the bytes of the names and then by the identifiers, and leaves the database as it was. -/
theorem listing_of_matched {environment : Environment} {database : Database} {server : Server}
    {words : List String} {found : Matches}
    (accepted : (outcome (matched words) ⟨database, server⟩).1 = .ok (.ok found))
    (path : found.path = ["config", "api", "fb_threatexchange"])
    (asks : found.innermost.isOn CommandTree.listGroupsId = true)
    (succeeds : (runOn environment words ⟨database, server⟩).1.exitCode = 0) :
    ∃ token groups after, database.StoresToken token ∧
      outcome (Client.mk token (baseUrl environment)).privacyGroups server = (.ok groups, after) ∧
      ∃ (shown : List PrivacyGroup) (text : String),
        runOn environment words ⟨database, server⟩ = (.printed text, ⟨database, after⟩) ∧
        shown.Perm (groups.filter (·.updatesEnabled)) ∧
        shown.Pairwise Listing.Precedes ∧
        text.toList.splitOn '\n' = shown.map Listing.groupLine ++ [[]] ∧
        text.toList.count '\n' = (groups.filter (·.updatesEnabled)).length := by
  obtain ⟨workspace, surfaces, takes⟩ := takes_of_matched accepted
  have ran := runOn_of_takes takes environment
  -- The words lead to the listing of groups, and what it gives is what the run prints.
  have handled : apiCommand environment workspace
      (.mk [] (some ("fb_threatexchange", found.innermost))) = listGroups environment := by
    change threatExchangeCommand environment workspace found.innermost = _
    simp [threatExchangeCommand, asks]
  rw [respond_api path, outcome_map, handled] at ran
  rcases listed : outcome (listGroups environment) ⟨database, server⟩ with ⟨result, session⟩
  rw [listed] at ran
  cases result with
  | error error =>
    have ran : runOn environment words ⟨database, server⟩ = (.failed error, session) := ran
    rw [ran] at succeeds
    exact absurd succeeds error.exitCode_ne_zero
  | ok text =>
    obtain ⟨token, groups, after, stored, given, rfl, rfl⟩ := listGroups_eq_ok listed
    obtain ⟨member, owner, -, -, -, merged⟩ := Client.privacyGroups_eq_ok.1 given
    -- Groups of the same name come in the order in which they were gathered, by their identifiers.
    have byId : groups.Pairwise fun a b => a.id ≤ b.id := by
      rw [merged]
      exact Client.merge_sorted member owner
    have whole : ∀ line ∈ (Listing.shown groups).map Listing.group, '\n' ∉ line.toList :=
      List.forall_mem_map.2 fun group _ => Listing.lineBreak_notMem_group group
    refine ⟨token, groups, after, stored, given, Listing.shown groups, Listing.groups groups, ran,
      Listing.shown_perm groups, Listing.shown_ordered byId, ?_, ?_⟩
    · rw [Listing.groups_eq, Listing.splitOn_lines whole, List.map_map]
      exact congrArg (· ++ [[]]) (List.map_congr_left fun group _ => Listing.toList_group group)
    · rw [Listing.groups_eq, Listing.count_lines whole, List.length_map,
        (Listing.shown_perm groups).length_eq]

def askForGroups : List String := ["config", "api", "fb_threatexchange", "-L"]

/-- The first list is not in order, and one of its groups has no updates. The second list has a group
with line breaks. -/
def unsorted : Server where
  answersAt := (· = "http://oracle.test")
  responses := [
    .answer 200 ("\x7b\"data\":[" ++
      "\x7b\"id\":9,\"name\":\"b\",\"threat_updates_enabled\":true\x7d," ++
      "\x7b\"id\":4,\"name\":\"a\"\x7d," ++
      "\x7b\"id\":5,\"name\":\"b\",\"threat_updates_enabled\":true\x7d]\x7d"),
    .answer 200 ("\x7b\"data\":[\x7b\"id\":\"7\",\"name\":\"a\\nb\"," ++
      "\"description\":\"c\\n\",\"threat_updates_enabled\":true\x7d]\x7d")]
  requests := []

def inOrder : List PrivacyGroup :=
  [⟨7, "a\nb", "c\n", true⟩, ⟨5, "b", "", true⟩, ⟨9, "b", "", true⟩]

theorem three_lines : ∃ found text after,
    (outcome (matched askForGroups) ⟨tokenStored, unsorted⟩).1 = .ok (.ok found) ∧
    found.innermost.isOn CommandTree.listGroupsId = true ∧
    runOn testHome askForGroups ⟨tokenStored, unsorted⟩ =
      (.printed text, ⟨tokenStored, after⟩) ∧
    text.toList.splitOn '\n' = ["7 a b - c ".toList, "5 b - ".toList, "9 b - ".toList, []] := by
  obtain ⟨found, accepted, path, asks⟩ : ∃ found,
      (outcome (matched askForGroups) ⟨tokenStored, unsorted⟩).1 = .ok (.ok found) ∧
      found.path = ["config", "api", "fb_threatexchange"] ∧
      found.innermost.isOn CommandTree.listGroupsId = true := ⟨_, rfl, rfl, rfl⟩
  have succeeds : (runOn testHome askForGroups ⟨tokenStored, unsorted⟩).1.exitCode = 0 := by
    decide +kernel
  obtain ⟨token, groups, after, stored, given, listed, text, ran, all, ordered, printed, -⟩ :=
    listing_of_matched accepted path asks succeeds
  cases stored
  have merged : outcome (Client.mk "1|a" (baseUrl testHome)).privacyGroups unsorted =
      (.ok (Client.merge [⟨9, "b", "", true⟩, ⟨4, "a", "", false⟩, ⟨5, "b", "", true⟩]
        [⟨7, "a\nb", "c\n", true⟩]), _) :=
    Client.outcome_privacyGroups (by decide +kernel) (by decide +kernel)
  have same := congrArg Prod.fst (given.symm.trans merged)
  cases same
  have among : listed.Perm inOrder :=
    all.trans (((List.mergeSort_perm _ _).filter _).trans (by decide +kernel))
  have apart : ∀ a ∈ inOrder, ∀ b ∈ inOrder,
      Listing.Precedes a b → Listing.Precedes b a → a = b := by decide +kernel
  have exact : listed = inOrder :=
    among.eq_of_pairwise (fun a b left right => apart a (among.mem_iff.1 left) b right) ordered
      (by decide +kernel)
  rw [exact] at printed
  exact ⟨found, text, after, accepted, asks, ran, printed⟩

end Program

end SignalExchange
