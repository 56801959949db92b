import SignalExchange.Proofs.Json.Typed
import SignalExchange.Proofs.Text.Integer
import SignalExchange.ThreatExchange.Group

/-! Privacy groups and the texts that hold them.

The identifier of a group is an integer, or a text that denotes one, and nothing else stands in its
place in any text that holds a group.
-/

set_option autoImplicit false

namespace SignalExchange

namespace PrivacyGroup

open Json

/-! Identifiers -/

/-- What an identifier is written as. -/
inductive Identifies : Json → Int → Prop where
  | integer {n : Int} (fits : Integer.InRange n) : Identifies (.integer n) n
  | text {text : String} {n : Int} (denotes : Integer.Denotes text.toList n) :
      Identifies (.string text) n

theorem idOf_eq_ok {v : Json} {n : Int} : idOf v = .ok n ↔ Identifies v n := by
  constructor
  · intro done
    cases v with
    | string text => exact .text (Integer.read_eq_ok_iff.1 (Except.mapError_eq_ok.1 done))
    | integer m =>
      rw [idOf] at done
      split at done
      next fits =>
        cases done
        exact .integer fits
      next => cases done
    | _ => cases done
  · intro identifies
    cases identifies with
    | integer fits => exact if_pos fits
    | text denotes => exact Except.mapError_eq_ok.2 (Integer.read_eq_ok_iff.2 denotes)

theorem Identifies.exact {v : Json} {n : Int} (identifies : Identifies v n) : v.Exact := by
  cases identifies with
  | integer fits => exact ⟨fits.1, fits.2.trans (by decide)⟩
  | text denotes => trivial

theorem Identifies.depth_eq {v : Json} {n : Int} (identifies : Identifies v n) : v.depth = 0 := by
  cases identifies <;> rfl

theorem idScanner_eq_ok {levels : Nat} {rest after : List Char} {n : Int} :
    idScanner levels rest = .ok (n, after) ↔
      ∃ v, value levels rest = .ok (v, after) ∧ Identifies v n := by
  rw [idScanner]
  constructor
  · intro read
    obtain ⟨⟨v, left⟩, scanned, read⟩ := Except.bind_eq_ok.1 read
    cases id : idOf v with
    | error cause => simp [id, Fault.waiting] at read
    | ok m =>
      simp only [id] at read
      cases read
      exact ⟨v, scanned, idOf_eq_ok.1 id⟩
  · intro found
    obtain ⟨v, scanned, identifies⟩ := found
    simp [scanned, idOf_eq_ok.2 identifies]

theorem readsBack_idScanner {v : Json} {n : Int} (identifies : Identifies v n) (levels : Nat) :
    ReadsBack (idScanner levels) v.print n := by
  intro rest ends
  have shallow : v.depth ≤ levels := identifies.depth_eq ▸ Nat.zero_le levels
  exact idScanner_eq_ok.2
    ⟨v, readsBack_print keepsAscending_insert v identifies.exact levels shallow rest ends, identifies⟩

/-! The text of a group -/

/-- The entries with what stands for the identifier, and with a description and a flag if they are
given. -/
def entriesOf (id : Json) (name : String) (description : Option String) (enabled : Option Bool) :
    List (String × Json) :=
  [("id", id), ("name", .string name)] ++
    description.toList.map (fun text => ("description", .string text)) ++
    enabled.toList.map (fun flag => ("threat_updates_enabled", .boolean flag))

def textOf (id : Json) (name : String) (description : Option String) (enabled : Option Bool) :
    String := (Json.object (entriesOf id name description enabled)).text

theorem text_eq (group : PrivacyGroup) : group.text =
    textOf (.integer group.id) group.name (some group.description) (some group.updatesEnabled) :=
  rfl

theorem readsBack_field {α : Type} {levels : Nat} {draft next : Draft} {key : String}
    {item : Scanner α} {text : List Char} {v : α} (reads : ReadsBack item text v)
    (field : ∀ {rest after}, once key none item rest = .ok (v, after) →
      Draft.member levels draft key rest = .ok (next, after)) :
    ReadsBack (Draft.member levels draft key) (':' :: text) next :=
  fun rest ends => field (readsBack_member reads rest ends)

theorem readsInTurn_entriesOf {id : Json} {n : Int} (identifies : Identifies id n) (levels : Nat)
    (name : String) (description : Option String) (enabled : Option Bool) :
    ReadsInTurn (Draft.member levels) print ⟨none, none, none, none⟩
      (entriesOf id name description enabled) ⟨some n, some name, description, enabled⟩ := by
  have idField : ReadsBack (Draft.member levels ⟨none, none, none, none⟩ "id") (':' :: print id)
      ⟨some n, none, none, none⟩ :=
    readsBack_field (readsBack_idScanner identifies levels) fun read => by
      simp [Draft.member, read]
  have nameField : ReadsBack (Draft.member levels ⟨some n, none, none, none⟩ "name")
      (':' :: print (.string name)) ⟨some n, some name, none, none⟩ :=
    readsBack_field (readsBack_stringValue name) fun read => by simp [Draft.member, read]
  have descriptionField (text : String) :
      ReadsBack (Draft.member levels ⟨some n, some name, none, none⟩ "description")
        (':' :: print (.string text)) ⟨some n, some name, some text, none⟩ :=
    readsBack_field (readsBack_stringValue text) fun read => by simp [Draft.member, read]
  have flagField (description : Option String) (flag : Bool) :
      ReadsBack (Draft.member levels ⟨some n, some name, description, none⟩ "threat_updates_enabled")
        (':' :: print (.boolean flag)) ⟨some n, some name, description, some flag⟩ :=
    readsBack_field (readsBack_booleanValue flag) fun read => by simp [Draft.member, read]
  have flags (description : Option String) :
      ReadsInTurn (Draft.member levels) print ⟨some n, some name, description, none⟩
        (enabled.toList.map fun flag => ("threat_updates_enabled", .boolean flag))
        ⟨some n, some name, description, enabled⟩ := by
    cases enabled with
    | none => exact .nil _
    | some flag => exact .cons (flagField description flag) (.nil _)
  refine .cons idField (.cons nameField ?_)
  cases description with
  | none => exact flags none
  | some text => exact .cons (descriptionField text) (flags (some text))

theorem read_textOf {id : Json} {n : Int} (identifies : Identifies id n) (name : String)
    (description : Option String) (enabled : Option Bool) :
    read (textOf id name description enabled) =
      .ok ⟨n, name, description.getD "", enabled.getD false⟩ := by
  refine readWith_of_readsBack fun rest _ => ?_
  have members := allMembers_print (readsInTurn_entriesOf identifies 126 name description enabled) rest
  have body : membersScanner 126
      (separated (printEntry print) (entriesOf id name description enabled) ++ '\x7d' :: rest) =
        .ok (⟨n, name, description.getD "", enabled.getD false⟩, '\x7d' :: rest) := by
    rw [membersScanner, members]
    rfl
  rw [print, printEntries_eq, List.cons_append, List.append_assoc, List.singleton_append, scanner,
    recordOf, skipBlanks_cons (by decide)]
  exact (objectOf_brace _ _ _ _).trans (inObject_of_body body)

/-! The identifier in a text -/

/-- Keeps what stands under the key of the identifier, and passes over all else. -/
def idMember (levels : Nat) (held : Option Json) (key : String) : Scanner (Option Json) :=
  fun rest => do
    if key = "id" then
      let (found, rest) ← once key held (value levels) rest
      return (some found, rest)
    else
      let (_, rest) ← member skipValue rest
      return (held, rest)

/-- What stands for the identifier in a text: it is under its key in an object, and first in a
list. -/
def idIn (text : String) : Option Json :=
  match skipBlanks text.toList with
  | '\x7b' :: rest => (allMembers (idMember 126) none rest).toOption.bind (·.1)
  | '[' :: rest => (element? 0 (value 126) rest).toOption.bind (·.1)
  | _ => none

theorem once_eq_ok {α : Type} {name : String} {held : Option α} {item : Scanner α}
    {rest after : List Char} {v : α} :
    once name held item rest = .ok (v, after) ↔ held = none ∧ member item rest = .ok (v, after) := by
  cases held with
  | none => simp [once]
  | some other => simp [once, Fault.waiting]

theorem member_eq_ok {α : Type} {item : Scanner α} {rest after : List Char} {v : α} :
    member item rest = .ok (v, after) ↔
      ∃ behind, colon rest = .ok ((), behind) ∧ item behind = .ok (v, after) := by
  rw [member, Except.bind_eq_ok]
  constructor
  · intro read
    obtain ⟨⟨⟨⟩, behind⟩, passed, read⟩ := read
    exact ⟨behind, passed, read⟩
  · intro read
    obtain ⟨behind, passed, read⟩ := read
    exact ⟨((), behind), passed, read⟩

/-- The identifier that was read, if any, is what was kept. -/
def Keeps (draft : Draft) (held : Option Json) : Prop :=
  (draft.id = none ∧ held = none) ∨ ∃ n v, draft.id = some n ∧ held = some v ∧ Identifies v n

theorem idMember_of_member {levels : Nat} {draft next : Draft} {held : Option Json} {key : String}
    {rest after : List Char} (keeps : Keeps draft held)
    (read : Draft.member levels draft key rest = .ok (next, after)) :
    ∃ last, idMember levels held key rest = .ok (last, after) ∧ Keeps next last := by
  -- The value of every other field is passed over as far as it is read.
  have other {α : Type} {name : String} {found : Option α} {item : Scanner α} {v : α}
      {left : List Char} (skips : ∀ {rest after v}, item rest = .ok (v, after) →
        skipValue rest = .ok ((), after))
      (read : once name found item rest = .ok (v, left)) :
      member skipValue rest = .ok ((), left) := by
    obtain ⟨behind, passed, inner⟩ := member_eq_ok.1 (once_eq_ok.1 read).2
    exact member_eq_ok.2 ⟨behind, passed, skips inner⟩
  rw [Draft.member] at read
  rw [idMember]
  split at read
  next own =>
    obtain ⟨⟨n, left⟩, found, same⟩ := Except.bind_eq_ok.1 read
    cases same
    obtain ⟨fresh, inner⟩ := once_eq_ok.1 found
    obtain ⟨behind, passed, idRead⟩ := member_eq_ok.1 inner
    obtain ⟨v, scanned, identifies⟩ := idScanner_eq_ok.1 idRead
    have unset : held = none := by
      rcases keeps with ⟨-, none⟩ | ⟨_, _, some, -, -⟩
      · exact none
      · cases fresh.symm.trans some
    have there : once key held (value levels) rest = .ok (v, after) :=
      once_eq_ok.2 ⟨unset, member_eq_ok.2 ⟨behind, passed, scanned⟩⟩
    exact ⟨some v, by simp [own ▸ there, own], .inr ⟨n, v, rfl, rfl, identifies⟩⟩
  next differs =>
    rw [if_neg differs]
    split at read
    · obtain ⟨_, found, same⟩ := Except.bind_eq_ok.1 read
      cases same
      exact ⟨held, by simp [other skipValue_of_stringValue found], keeps⟩
    · split at read
      · obtain ⟨_, found, same⟩ := Except.bind_eq_ok.1 read
        cases same
        exact ⟨held, by simp [other skipValue_of_stringValue found], keeps⟩
      · split at read
        · obtain ⟨_, found, same⟩ := Except.bind_eq_ok.1 read
          cases same
          exact ⟨held, by simp [other skipValue_of_booleanValue found], keeps⟩
        · obtain ⟨⟨⟨⟩, left⟩, found, same⟩ := Except.bind_eq_ok.1 read
          cases same
          exact ⟨held, by simp [found], keeps⟩

theorem id_of_membersScanner {levels : Nat} {rest after : List Char} {group : PrivacyGroup}
    (read : membersScanner levels rest = .ok (group, after)) :
    ∃ v, allMembers (idMember levels) none rest = .ok (some v, after) ∧ Identifies v group.id := by
  obtain ⟨⟨draft, left⟩, members, read⟩ := Except.bind_eq_ok.1 read
  obtain ⟨n, unique, read⟩ := Except.bind_eq_ok.1 read
  obtain ⟨name, -, same⟩ := Except.bind_eq_ok.1 read
  cases same
  have step : ∀ draft held key rest next after, Keeps draft held →
      Draft.member levels draft key rest = .ok (next, after) →
      ∃ last, idMember levels held key rest = .ok (last, after) ∧ Keeps next last :=
    fun _ _ _ _ _ _ keeps read => idMember_of_member keeps read
  obtain ⟨last, kept, keeps⟩ := members_simulates step (.inl ⟨rfl, rfl⟩) members
  rcases keeps with ⟨none, -⟩ | ⟨m, v, found, rfl, identifies⟩
  · simp [required, none, Fault.waiting] at unique
  · simp only [required, found] at unique
    cases unique
    exact ⟨v, kept, identifies⟩

theorem id_of_elementsScanner {levels : Nat} {rest after : List Char} {group : PrivacyGroup}
    (read : elementsScanner levels rest = .ok (group, after)) :
    ∃ v left, element? 0 (value levels) rest = .ok (some v, left) ∧ Identifies v group.id := by
  obtain ⟨⟨n, left⟩, first, read⟩ := Except.bind_eq_ok.1 read
  obtain ⟨_, -, read⟩ := Except.bind_eq_ok.1 read
  obtain ⟨_, -, read⟩ := Except.bind_eq_ok.1 read
  obtain ⟨_, -, same⟩ := Except.bind_eq_ok.1 read
  cases same
  obtain ⟨start, next, idRead⟩ := element?_eq_ok.1 (element_eq_ok.1 first)
  obtain ⟨v, scanned, identifies⟩ := idScanner_eq_ok.1 idRead
  exact ⟨v, left, element?_eq_ok.2 ⟨start, next, scanned⟩, identifies⟩

theorem idIn_of_read {text : String} {group : PrivacyGroup} (done : read text = .ok group) :
    ∃ v, idIn text = some v ∧ Identifies v group.id := by
  obtain ⟨rest, scanned⟩ := scanned_of_readWith done
  rw [scanner, recordOf] at scanned
  rw [idIn]
  split at scanned
  next inner opening =>
    rw [nestingLimit, listOf_bracket, inList_eq_ok] at scanned
    obtain ⟨closing, body, -⟩ := scanned
    obtain ⟨v, left, kept, identifies⟩ := id_of_elementsScanner body
    exact ⟨v, by simp [opening, kept, Except.toOption], identifies⟩
  next =>
    unfold objectOf at scanned
    rw [skipBlanks_skipBlanks, nestingLimit] at scanned
    split at scanned
    next same => cases same
    next inner levels opening same =>
      cases same
      obtain ⟨closing, body, -⟩ := inObject_eq_ok.1 scanned
      obtain ⟨v, kept, identifies⟩ := id_of_membersScanner body
      exact ⟨v, by simp [opening, kept, Except.toOption], identifies⟩
    next => exact absurd scanned refuse_ne_ok

/-- A number that is no integer of 64 bits, or a text that denotes none. -/
inductive NoIdentifier : Json → Prop where
  | integer {n : Int} (outside : ¬Integer.InRange n) : NoIdentifier (.integer n)
  | double (x : Binary64) : NoIdentifier (.double x)
  | text {text : String} (denotes : ∀ n, ¬Integer.Denotes text.toList n) :
      NoIdentifier (.string text)

theorem NoIdentifier.not_identifies {v : Json} (no : NoIdentifier v) (n : Int) :
    ¬Identifies v n := by
  intro identifies
  cases identifies with
  | integer fits =>
    cases no with
    | integer outside => exact outside fits
  | text denotes =>
    cases no with
    | text none => exact none n denotes

/-- A group is read back from its text, also where the identifier is the text of its digits, and
where the description or the flag is left out. Whatever text a group is read from, an integer of 64
bits or a text that denotes one stands for its identifier. -/
theorem texts_of_group {group : PrivacyGroup} (fits : Integer.InRange group.id) :
    group.text = textOf (.integer group.id) group.name (some group.description)
      (some group.updatesEnabled) ∧
    read group.text = .ok group ∧
    (∀ id ∈ [Json.integer group.id, .string (String.ofList (Integer.text group.id))],
      ∀ description enabled, read (textOf id group.name description enabled) =
        .ok { group with
          description := description.getD "", updatesEnabled := enabled.getD false }) ∧
    (∀ text other, read text = .ok other → ∃ v, idIn text = some v ∧ Identifies v other.id) ∧
    ∀ text v, idIn text = some v → NoIdentifier v → ∀ other, read text ≠ .ok other := by
  have digits : Identifies (.string (String.ofList (Integer.text group.id))) group.id :=
    .text (by rw [String.toList_ofList]; exact Integer.denotes_text fits)
  refine ⟨text_eq group, ?_, ?_, fun text other => idIn_of_read, ?_⟩
  · rw [text_eq]
    exact read_textOf (.integer fits) _ _ _
  · intro id member description enabled
    have identifies : Identifies id group.id := by
      rcases List.mem_pair.1 member with rfl | rfl
      · exact .integer fits
      · exact digits
    exact read_textOf identifies group.name description enabled
  · intro text v stands no other done
    obtain ⟨found, same, identifies⟩ := idIn_of_read done
    cases stands.symm.trans same
    exact no.not_identifies other.id identifies

/-- The least identifier as a text, and an integer above the greatest one. -/
theorem texts_of_least :
    read (textOf (.string "-9223372036854775808") "a\"\n" none none) =
      .ok ⟨-9223372036854775808, "a\"\n", "", false⟩ ∧
    ∀ group, read "\x7b\"name\":\"a\",\"id\":9223372036854775808\x7d" ≠ .ok group := by
  have fits : Integer.InRange (-9223372036854775808) := by decide
  have digits : String.ofList (Integer.text (-9223372036854775808)) = "-9223372036854775808" := by
    decide +kernel
  obtain ⟨-, -, reads, -, none⟩ :=
    @texts_of_group ⟨-9223372036854775808, "a\"\n", "d", true⟩ fits
  refine ⟨reads _ ?_ Option.none Option.none,
    none _ (.integer 9223372036854775808) rfl (.integer (by decide))⟩
  rw [digits]
  exact List.mem_cons_of_mem _ List.mem_cons_self

end PrivacyGroup

end SignalExchange
