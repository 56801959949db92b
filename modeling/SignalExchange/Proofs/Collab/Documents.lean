import SignalExchange.Proofs.Collab.Assignment
import SignalExchange.Proofs.Json.Typed

/-! Records and the texts that hold them.

The reader of a record goes through the members of its document. The first of them decides the name,
and only keys that are not common ones become attributes.
-/

set_option autoImplicit false

namespace SignalExchange

namespace Collab

open Json

theorem draft_of_read {text : String} {collab : Collab} (done : Collab.read text = .ok collab) :
    ∃ inside draft closing, skipBlanks text.toList = '\x7b' :: inside ∧
      allMembers (Draft.member 126) ⟨none, none, none, .empty⟩ inside = .ok (draft, closing) ∧
      draft.finish closing = .ok collab := by
  obtain ⟨rest, scanned⟩ := scanned_of_readWith done
  unfold scanner objectOf at scanned
  simp only [nestingLimit] at scanned
  split at scanned
  next h => cases h
  next inside levels opening same =>
    cases same
    obtain ⟨closing, body, -⟩ := inObject_eq_ok.1 scanned
    obtain ⟨⟨draft, left⟩, members, ended⟩ := Except.bind_eq_ok.1 body
    obtain ⟨_, finished, same⟩ := Except.bind_eq_ok.1 ended
    cases same
    exact ⟨inside, draft, _, opening, members, finished⟩
  next => exact absurd scanned refuse_ne_ok

theorem finish_eq_ok {draft : Draft} {rest : List Char} {collab : Collab} :
    draft.finish rest = .ok collab ↔ draft.name = some collab.name ∧ draft.api = some collab.api ∧
      draft.enabled = some collab.enabled ∧ draft.attributes = collab.attributes := by
  obtain ⟨name, api, enabled, attributes⟩ := draft
  obtain ⟨name', api', enabled', attributes'⟩ := collab
  cases name with
  | none => exact iff_of_false nofun nofun
  | some name =>
    cases api with
    | none => exact iff_of_false nofun nofun
    | some api =>
      cases enabled with
      | none => exact iff_of_false nofun nofun
      | some enabled => simp [Draft.finish, required]

theorem name_of_member {levels : Nat} {name : String} {draft next : Draft} {key : String}
    {rest after : List Char} (named : draft.name = some name)
    (read : Draft.member levels draft key rest = .ok (next, after)) : next.name = some name := by
  unfold Draft.member at read
  split at read
  · rw [named] at read
    cases read
  · split at read
    · obtain ⟨_, -, same⟩ := Except.bind_eq_ok.1 read
      cases same
      exact named
    · split at read
      · obtain ⟨_, -, same⟩ := Except.bind_eq_ok.1 read
        cases same
        exact named
      · obtain ⟨_, -, same⟩ := Except.bind_eq_ok.1 read
        cases same
        exact named

/-- What a text of a record gives back has the name of the record, whatever became of the rest. -/
theorem name_of_read_text {collab read : Collab} (done : Collab.read collab.text = .ok read) :
    read.name = collab.name := by
  obtain ⟨inside, draft, closing, opening, members, finished⟩ := draft_of_read done
  have entries : collab.text.toList = '\x7b' :: (printString "name" ++
      (':' :: print (.string collab.name) ++ (following (printEntry print)
        (("api", .string collab.api) :: ("enabled", .boolean collab.enabled) ::
          collab.attributes.entries) ++ ['\x7d']))) := by
    simp [Collab.text, printEntries_eq, Collab.entries, separated, printEntry]
  rw [entries, skipBlanks_cons (by decide)] at opening
  cases opening
  have stops : goesOn '\x7d' = false := by decide
  have first := (readsBack_member (readsBack_stringValue collab.name)) _
    (@endsNumber_following _ (printEntry print) (("api", .string collab.api) ::
      ("enabled", .boolean collab.enabled) :: collab.attributes.entries) '\x7d' stops [])
  rw [allMembers, members_first] at members
  obtain ⟨⟨next, rest⟩, head, members⟩ := Except.bind_eq_ok.1 members
  have named : next.name = some collab.name := by
    rw [Draft.member] at head
    simp only [if_true, once, first] at head
    cases head
    rfl
  have kept := members_preserves (P := fun draft => draft.name = some collab.name)
    (fun _ _ _ _ _ named read => name_of_member named read) named members
  rw [(finish_eq_ok.1 finished).1] at kept
  exact Option.some.inj kept

theorem formed_of_member {levels : Nat} {draft next : Draft} {key : String}
    {rest after : List Char}
    (formed : ∀ entry ∈ draft.attributes.entries, entry.1 ∉ commonNames)
    (read : Draft.member levels draft key rest = .ok (next, after)) :
    ∀ entry ∈ next.attributes.entries, entry.1 ∉ commonNames := by
  unfold Draft.member at read
  split at read
  · obtain ⟨_, -, same⟩ := Except.bind_eq_ok.1 read
    cases same
    exact formed
  · split at read
    · obtain ⟨_, -, same⟩ := Except.bind_eq_ok.1 read
      cases same
      exact formed
    · split at read
      · obtain ⟨_, -, same⟩ := Except.bind_eq_ok.1 read
        cases same
        exact formed
      next notName notApi notEnabled =>
        obtain ⟨⟨value, left⟩, -, same⟩ := Except.bind_eq_ok.1 read
        cases same
        intro entry member
        rcases Ascending.mem_insert member with rfl | old
        · simpa [commonNames, commonFields] using ⟨notName, notApi, notEnabled⟩
        · exact formed entry old

theorem formed_of_read {text : String} {collab : Collab} (done : Collab.read text = .ok collab) :
    collab.Formed := by
  obtain ⟨inside, draft, closing, -, members, finished⟩ := draft_of_read done
  have formed := members_preserves
    (P := fun draft => ∀ entry ∈ draft.attributes.entries, entry.1 ∉ commonNames)
    (fun _ _ _ _ _ formed read => formed_of_member formed read) nofun members
  rw [(finish_eq_ok.1 finished).2.2.2] at formed
  exact formed

end Collab
end SignalExchange
