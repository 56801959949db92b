import SignalExchange.Proofs.Json.Records
import SignalExchange.Proofs.ThreatExchange.GroupText

/-! Pages and the texts that hold them.

A document shows a page by its fields: the groups stand under `data`, the address of the next page
under `next` inside of `paging`. Every text of a document is read as the page that the document
shows, and refused if it shows none.
-/

set_option autoImplicit false

namespace SignalExchange

open Json

namespace PrivacyGroup

/-- An integer of 64 bits, or a text that denotes one. -/
def identifier? (v : Json) : Option Int := (idOf v).toOption

theorem identifier?_eq_some {v : Json} {n : Int} : identifier? v = some n ↔ Identifies v n := by
  rw [identifier?, Except.toOption_eq_some, idOf_eq_ok]

def members? (entries : List (String × Json)) : Option PrivacyGroup := do
  let id ← field? "id" identifier? entries
  let name ← field? "name" string? entries
  let description ← field? "description" string? entries
  let enabled ← field? "threat_updates_enabled" boolean? entries
  return ⟨← id, ← name, description.getD "", enabled.getD false⟩

def elements? : List Json → Option PrivacyGroup
  | [id, name] => do return ⟨← identifier? id, ← string? name, "", false⟩
  | [id, name, description] => do
    return ⟨← identifier? id, ← string? name, ← string? description, false⟩
  | [id, name, description, enabled] => do
    return ⟨← identifier? id, ← string? name, ← string? description, ← boolean? enabled⟩
  | _ => none

/-- The group that a document shows. -/
def shown? : Json → Option PrivacyGroup := record? members? elements?

/-! The reading of a group -/

theorem follows_idScanner (levels : Nat) : Follows levels (idScanner levels) identifier? := by
  intro rest after v read
  -- Only what starts with no bracket is an identifier, and it is read alike by both readers.
  have bracket {c : Char} {inner : List Char} (opening : skipBlanks rest = c :: inner)
      (either : c = '[' ∨ c = '\x7b') : (idScanner levels rest).toOption = none := by
    refine Option.eq_none_iff_forall_ne_some.2 fun ⟨n, left⟩ found => ?_
    obtain ⟨w, scanned, identifies⟩ := idScanner_eq_ok.1 (Except.toOption_eq_some.1 found)
    cases holds_of_valueWith scanned with
    | list => cases identifies
    | object => cases identifies
    | bare starts notList notObject =>
      cases opening.symm.trans starts
      exact either.elim notList notObject
  cases holds_of_valueWith read with
  | list opening => exact bracket opening (.inl rfl)
  | object opening => exact bracket opening (.inr rfl)
  | bare starts notList notObject scanned =>
    rw [idScanner, value, valueWith_bare starts notList notObject, scanned, Except.ok_bind,
      identifier?]
    cases id : idOf v <;> simp [id, Fault.waiting]

def Draft.enter? (draft : Draft) (entry : String × Json) : Option Draft := do
  return {
    id := ← Json.enter? "id" identifier? draft.id entry
    name := ← Json.enter? "name" string? draft.name entry
    description := ← Json.enter? "description" string? draft.description entry
    updatesEnabled := ← Json.enter? "threat_updates_enabled" boolean? draft.updatesEnabled entry }

theorem followsMember_member (levels : Nat) :
    FollowsMember levels (Draft.member levels) Draft.enter? := by
  intro draft key rest behind after v past read
  -- A member enters one field at most, and leaves the others as they are.
  have other {α : Type} (field : String) (differs : key ≠ field) (view : Json → Option α)
      (held : Option α) : Json.enter? field view held (key, v) = some held :=
    enter?_of_ne differs held
  rw [Draft.member, Draft.enter?]
  split
  next same =>
    subst same
    have shown := toOption_put "id" ({ draft with id := · }) (follows_idScanner levels)
      draft.id past read
    rw [shown, other "name" (by decide), other "description" (by decide),
      other "threat_updates_enabled" (by decide)]
    cases Json.enter? "id" identifier? draft.id ("id", v) <;> rfl
  next notId =>
    rw [other _ notId]
    split
    next same =>
      subst same
      have shown := toOption_put "name" ({ draft with name := · })
        (follows_stringValue levels) draft.name past read
      rw [shown, other "description" (by decide), other "threat_updates_enabled" (by decide)]
      cases Json.enter? "name" string? draft.name ("name", v) <;> rfl
    next notName =>
      rw [other _ notName]
      split
      next same =>
        subst same
        have shown := toOption_put "description" ({ draft with description := · })
          (follows_stringValue levels) draft.description past read
        rw [shown, other "threat_updates_enabled" (by decide)]
        cases Json.enter? "description" string? draft.description ("description", v) <;> rfl
      next notDescription =>
        rw [other _ notDescription]
        split
        next same =>
          subst same
          have shown := toOption_put "threat_updates_enabled"
            ({ draft with updatesEnabled := · }) (follows_booleanValue levels)
            draft.updatesEnabled past read
          rw [shown]
          cases Json.enter? "threat_updates_enabled" boolean? draft.updatesEnabled
            ("threat_updates_enabled", v) <;> rfl
        next notEnabled =>
          rw [other _ notEnabled, Except.toOption_bind, toOption_passed past read]
          rfl

theorem foldlM_enter? (draft : Draft) (entries : List (String × Json)) :
    entries.foldlM Draft.enter? draft = (do
      let id ← entries.foldlM (Json.enter? "id" identifier?) draft.id
      let name ← entries.foldlM (Json.enter? "name" string?) draft.name
      let description ← entries.foldlM (Json.enter? "description" string?) draft.description
      let enabled ← entries.foldlM (Json.enter? "threat_updates_enabled" boolean?)
        draft.updatesEnabled
      return ⟨id, name, description, enabled⟩) := by
  induction entries generalizing draft with
  | nil => rfl
  | cons entry more ih =>
    simp only [List.foldlM_cons, Draft.enter?]
    cases Json.enter? "id" identifier? draft.id entry <;>
      cases Json.enter? "name" string? draft.name entry <;>
      cases Json.enter? "description" string? draft.description entry <;>
      cases Json.enter? "threat_updates_enabled" boolean? draft.updatesEnabled entry <;>
      simp [ih]

theorem toOption_membersScanner {levels : Nat} {inner closing : List Char}
    {entries : List (String × Json)}
    (read : allMembers (entryInto putLast (written levels)) [] inner = .ok (entries, closing)) :
    (membersScanner levels inner).toOption =
      (members? entries).map fun shown => (shown, closing) := by
  rw [membersScanner, Except.toOption_bind, (followsMember_member levels).allMembers read,
    foldlM_enter?]
  simp only [Json.foldlM_enter?, members?]
  cases field? "id" identifier? entries with
  | none => rfl
  | some id =>
    cases field? "name" string? entries with
    | none => rfl
    | some name =>
      cases field? "description" string? entries with
      | none => rfl
      | some description =>
        cases field? "threat_updates_enabled" boolean? entries with
        | none => rfl
        | some enabled => cases id <;> cases name <;> rfl

theorem toOption_elementsScanner {levels : Nat} {inner closing after : List Char}
    {values : List Json} (read : allItems (written levels) inner = .ok (values, closing))
    (closed : closeList closing = .ok ((), after)) :
    (inList (elementsScanner levels) inner).toOption =
      (elements? values).map fun shown => (shown, after) := by
  have text := follows_stringValue levels
  have takes := (takes_element (follows_idScanner levels) 0 "struct PrivacyGroup with 4 elements").bind
    fun id => (takes_element text 1 "struct PrivacyGroup with 4 elements").bind
    fun name => (takes_element? text 2).bind
    fun description => (takes_element? (follows_booleanValue levels) 3).bind
    fun enabled => takes_pure (⟨id, name, description.getD "", enabled.getD false⟩ : PrivacyGroup)
  -- The scanner takes one item after the other; the view matches the whole list at once.
  refine (takes.inList read closed).trans (congrArg _ ?_)
  match values with
  | [] => rfl
  | [id] => cases view : identifier? id <;> simp [item?, elements?, view]
  | [id, name] =>
    cases view : identifier? id <;> cases viewName : string? name <;>
      simp [item?, lastItem?, elements?, whole?, view, viewName]
  | [id, name, description] =>
    cases view : identifier? id <;> cases viewName : string? name <;>
      cases viewText : string? description <;>
      simp [item?, lastItem?, elements?, whole?, view, viewName, viewText]
  | [id, name, description, enabled] =>
    cases view : identifier? id <;> cases viewName : string? name <;>
      cases viewText : string? description <;> cases viewFlag : boolean? enabled <;>
      simp [item?, lastItem?, elements?, whole?, view, viewName, viewText, viewFlag]
  | id :: name :: description :: enabled :: _ :: _ =>
    cases view : identifier? id <;> cases viewName : string? name <;>
      cases viewText : string? description <;> cases viewFlag : boolean? enabled <;>
      simp [item?, lastItem?, elements?, whole?, view, viewName, viewText, viewFlag]

theorem follows_scanner (levels : Nat) : Follows levels (scanner levels) shown? :=
  follows_recordOf toOption_membersScanner toOption_elementsScanner levels

end PrivacyGroup

namespace Page

def next? : Json → Option (Option String) :=
  record? (fun entries => (field? "next" (optional? string?) entries).map (·.getD none))
    fun
    | [next] => optional? string? next
    | _ => none

def members? (entries : List (String × Json)) : Option Page := do
  let groups ← field? "data" (list? PrivacyGroup.shown?) entries
  let next ← field? "paging" (optional? next?) entries
  return ⟨← groups, (next.getD none).join⟩

def elements? : List Json → Option Page
  | [groups] => do return ⟨← list? PrivacyGroup.shown? groups, none⟩
  | [groups, paging] => do
    return ⟨← list? PrivacyGroup.shown? groups, (← optional? next? paging).join⟩
  | _ => none

/-- The page that a document shows. -/
def shown? : Json → Option Page := record? members? elements?

theorem followsMember_nextMember (levels : Nat) :
    FollowsMember levels nextMember (Json.enter? "next" (optional? string?)) := by
  intro next key rest behind after v past read
  rw [nextMember]
  split
  next same =>
    subst same
    exact toOption_put "next" id (follows_optionalValue (follows_stringValue levels)) next past read
  next other =>
    rw [enter?_of_ne other, Except.toOption_bind, toOption_passed past read]
    rfl

theorem follows_nextScanner (levels : Nat) : Follows levels (nextScanner levels) next? := by
  refine follows_recordOf (fun {levels _ _ entries} read => ?_)
    (fun {levels _ _ _ values} read closed => ?_) levels
  · rw [Except.toOption_bind, (followsMember_nextMember levels).allMembers read, Json.foldlM_enter?]
    cases field? "next" (optional? string?) entries <;> rfl
  · have takes := takes_element (follows_optionalValue (follows_stringValue levels)) 0
      "struct Paging with 1 element"
    refine (takes.inList read closed).trans (congrArg _ ?_)
    match values with
    | [] => rfl
    | [next] => cases view : optional? string? next <;> simp [item?, whole?, view]
    | next :: _ :: _ => cases view : optional? string? next <;> simp [item?, whole?, view]

def Draft.enter? (draft : Draft) (entry : String × Json) : Option Draft := do
  return {
    groups := ← Json.enter? "data" (list? PrivacyGroup.shown?) draft.groups entry
    next := ← Json.enter? "paging" (optional? next?) draft.next entry }

theorem followsMember_member (levels : Nat) :
    FollowsMember levels (Draft.member levels) Draft.enter? := by
  intro draft key rest behind after v past read
  rw [Draft.member, Draft.enter?]
  split
  next same =>
    subst same
    have shown := toOption_put "data" ({ draft with groups := · })
      (follows_sequence PrivacyGroup.follows_scanner levels) draft.groups past read
    have differs : "data" ≠ "paging" := by decide
    have other : Json.enter? "paging" (optional? next?) draft.next ("data", v) = some draft.next :=
      enter?_of_ne differs _
    rw [shown, other]
    cases Json.enter? "data" (list? PrivacyGroup.shown?) draft.groups ("data", v) <;> rfl
  next notData =>
    rw [enter?_of_ne notData]
    split
    next same =>
      subst same
      have shown := toOption_put "paging" ({ draft with next := · })
        (follows_optionalValue (follows_nextScanner levels)) draft.next past read
      rw [shown]
      cases Json.enter? "paging" (optional? next?) draft.next ("paging", v) <;> rfl
    next notPaging =>
      rw [enter?_of_ne notPaging, Except.toOption_bind, toOption_passed past read]
      rfl

theorem foldlM_enter? (draft : Draft) (entries : List (String × Json)) :
    entries.foldlM Draft.enter? draft = (do
      let groups ← entries.foldlM (Json.enter? "data" (list? PrivacyGroup.shown?)) draft.groups
      let next ← entries.foldlM (Json.enter? "paging" (optional? next?)) draft.next
      return ⟨groups, next⟩) := by
  induction entries generalizing draft with
  | nil => rfl
  | cons entry more ih =>
    simp only [List.foldlM_cons, Draft.enter?]
    cases Json.enter? "data" (list? PrivacyGroup.shown?) draft.groups entry <;>
      cases Json.enter? "paging" (optional? next?) draft.next entry <;>
      simp [ih]

theorem follows_scanner (levels : Nat) : Follows levels (scanner levels) shown? := by
  refine follows_recordOf (fun {levels _ _ entries} read => ?_)
    (fun {levels _ _ _ values} read closed => ?_) levels
  · rw [Except.toOption_bind, (followsMember_member levels).allMembers read, foldlM_enter?]
    simp only [Json.foldlM_enter?, members?]
    cases field? "data" (list? PrivacyGroup.shown?) entries with
    | none => rfl
    | some groups => cases field? "paging" (optional? next?) entries <;> cases groups <;> rfl
  · have takes := (takes_element (follows_sequence PrivacyGroup.follows_scanner levels) 0
      "struct Page with 2 elements").bind
      fun groups => (takes_element? (follows_optionalValue (follows_nextScanner levels)) 1).bind
      fun next => takes_pure (⟨groups, (next.getD none).join⟩ : Page)
    refine (takes.inList read closed).trans (congrArg _ ?_)
    match values with
    | [] => rfl
    | [groups] =>
      cases view : list? PrivacyGroup.shown? groups <;>
        simp [item?, lastItem?, elements?, whole?, view]
    | [groups, paging] =>
      cases view : list? PrivacyGroup.shown? groups <;>
        cases viewNext : optional? next? paging <;>
        simp [item?, lastItem?, elements?, whole?, view, viewNext]
    | groups :: paging :: _ :: _ =>
      cases view : list? PrivacyGroup.shown? groups <;>
        cases viewNext : optional? next? paging <;>
        simp [item?, lastItem?, elements?, whole?, view, viewNext]

theorem read_eq_ok_iff {text : String} {v : Json}
    (holds : readWith (written nestingLimit) text = .ok v) {page : Page} :
    read text = .ok page ↔ shown? v = some page := by
  rw [← Except.toOption_eq_some, read, toOption_readWith (follows_scanner nestingLimit) holds]

end Page

end SignalExchange
