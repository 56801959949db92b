import SignalExchange.Proofs.Collab.Overlay
import SignalExchange.Proofs.Collab.Verdict
import SignalExchange.Proofs.Json.RoundTrip

/-! The two forms of an edit command.

Values for the fields of a record are given by flags, or in a document together with its name. A
document is checked before the store is asked, flags are checked when they are assigned. All the
same both forms come to one end.
-/

set_option autoImplicit false

namespace SignalExchange

open Call Database

namespace EditArgs

def byFlags (name : String) (create : Bool) (enable : Option Nat)
    (given : List (String × Json)) : EditArgs := ⟨name, create, enable, false, given⟩

def byDocument (text : String) (create : Bool) (enable : Option Nat) : EditArgs :=
  ⟨text, create, enable, true, []⟩

def document (name : String) (given : List (String × Json)) : List (String × Json) :=
  Ascending.ofList (("name", .string name) :: given)

/-- An edit of the store from its arguments on. -/
def perform (schema : Schema) (fields : List EditableField) (args : EditArgs) :
    ExceptT ConfigError (StateM Database) Outcome := do
  collabStore.apply schema (← MonadExcept.ofExcept (args.resolve schema.api fields))

theorem document_ascending (name : String) (given : List (String × Json)) :
    Ascending (document name given) := Ascending.ofList_ascending _

variable {api : String} {own : List Field} {fields : List EditableField} {name : String}
  {given : List (String × Json)}

theorem outcome_perform (schema : Schema) (args : EditArgs) (database : Database) :
    outcome (args.perform schema fields) database =
      match args.resolve schema.api fields with
      | .ok resolved => outcome (collabStore.apply schema resolved) database
      | .error error => (.error error, database) := by
  rw [perform, outcome_bind, outcome_ofExcept]
  cases args.resolve schema.api fields <;> rfl

/-! The values of the two forms -/

theorem lookup_toggle_own (args : EditArgs) {key : String} (own : key ∉ commonNames) :
    EditSet.lookup key args.toggle = none := by
  refine EditSet.lookup_eq_none fun member => ?_
  obtain ⟨entry, inToggle, rfl⟩ := List.mem_map.1 member
  obtain ⟨enabled, rfl⟩ := mem_toggle inToggle
  exact own (mem_commonNames.2 (.inr (.inr rfl)))

theorem lookup_identity_own (args : EditArgs) (identifier : String) {key : String}
    (own : key ∉ commonNames) : EditSet.lookup key (args.identity api identifier) = none := by
  refine EditSet.lookup_eq_none fun member => ?_
  obtain ⟨entry, inIdentity, rfl⟩ := List.mem_map.1 member
  rcases mem_identity inIdentity with rfl | rfl | rfl <;> exact own (mem_commonNames.2 (by simp))

section

variable (apart : ∀ field ∈ fields, field.name ∉ commonNames)
  (editable : ∀ entry ∈ given, entry.1 ∈ fields.map (·.name))

include editable

theorem flag?_byFlags (create : Bool) (enable : Option Nat) (key : String) :
    (byFlags name create enable given).flag? fields key = EditSet.lookup key given := by
  rw [flag?]
  split
  · rfl
  next missing =>
    refine (EditSet.lookup_eq_none fun member => missing ?_).symm
    obtain ⟨entry, inGiven, rfl⟩ := List.mem_map.1 member
    exact editable entry inGiven

include apart

theorem lookup_common {key : String} (common : key ∈ commonNames) :
    EditSet.lookup key given = none := by
  refine EditSet.lookup_eq_none fun member => ?_
  obtain ⟨entry, inGiven, rfl⟩ := List.mem_map.1 member
  obtain ⟨field, inFields, named⟩ := List.mem_map.1 (editable entry inGiven)
  exact apart field inFields (named ▸ common)

theorem find?_document (distinct : (given.map (·.1)).Nodup) (key : String) :
    Ascending.find? key (document name given) =
      if key = "name" then some (.string name) else EditSet.lookup key given := by
  have fresh : "name" ∉ given.map (·.1) := by
    intro member
    obtain ⟨entry, inGiven, same⟩ := List.mem_map.1 member
    obtain ⟨field, inFields, named⟩ := List.mem_map.1 (editable entry inGiven)
    have common : "name" ∈ commonNames := by decide
    exact apart field inFields (by rw [named, same]; exact common)
  have once : ((("name", Json.string name) :: given).map (·.1)).Nodup :=
    List.nodup_cons.2 ⟨fresh, distinct⟩
  rw [document, EditSet.find?_ofList, EditSet.lookup_reverse once, EditSet.lookup]
  simp only [eq_comm]

theorem values_agree (distinct : (given.map (·.1)).Nodup) (text : String) (create : Bool)
    (enable : Option Nat) {key : String} (either : key ≠ "name" ∨ create = true) :
    (byFlags name create enable given).value? api fields name [] key =
      (byDocument text create enable).value? api fields name (document name given) key := by
  have toggle : (byFlags name create enable given).toggle =
      (byDocument text create enable).toggle := rfl
  have identity : (byFlags name create enable given).identity api name =
      (byDocument text create enable).identity api name := rfl
  have noFlag : (byDocument text create enable).flag? fields key = none := by
    simp [flag?, byDocument, EditSet.lookup]
  rw [value?, value?, flag?_byFlags editable, noFlag, toggle, identity,
    find?_document apart editable distinct, Ascending.find?_nil, Option.none_or]
  -- A common field is never given, and the layers above the document have no others.
  by_cases common : key ∈ commonNames
  · rw [lookup_common apart editable common, Option.none_or]
    rcases either with notName | rfl
    · rw [if_neg notName]
    · by_cases isName : key = "name"
      · subst isName
        simp [EditArgs.identity, byDocument, EditSet.lookup]
      · rw [if_neg isName]
  · have notName : key ≠ "name" := by
      rintro rfl
      exact common (by decide)
    simp only [lookup_toggle_own _ common, lookup_identity_own _ name common, if_neg notName,
      Option.none_or, Option.or_none]

end

end EditArgs

/-! Verdicts -/

namespace ResolvedEdit

variable {api : String} {own : List Field} {first second : ResolvedEdit} {held : Option Collab}

/-- An edit that is to be applied to a record of the exchange assigns no other exchange to it. -/
def KeepsExchange (edit : ResolvedEdit) : Prop :=
  edit.create = false → edit.edit.get? "api" = none

theorem agrees_of_proper {edit : ResolvedEdit} (proper : edit.Proper (Schema.ofFields api own))
    (distinct : edit.edit.keys.Nodup) (keeps : edit.KeepsExchange) (edits : edit.create = false)
    {collab : Collab} (named : collab.name = edit.identifier) :
    ∀ entry ∈ edit.edit.entries, collab.Agrees entry := by
  rintro ⟨key, value⟩ member
  refine ⟨fun isName => ?_, fun isApi => ?_⟩
  · rw [named]
    exact proper.named _ member isName
  · have there := (EditSet.lookup_eq_some_iff distinct).2 member
    rw [show key = "api" from isApi] at there
    cases (keeps edits).symm.trans there

/-- Two edits that give the fields the same values have the same verdict. On a record that is there
the name makes no difference. -/
theorem verdict_congr (identifier : first.identifier = second.identifier)
    (create : first.create = second.create)
    (left : first.Proper (Schema.ofFields api own))
    (right : second.Proper (Schema.ofFields api own))
    (distinct : first.edit.keys.Nodup ∧ second.edit.keys.Nodup)
    (keeps : first.KeepsExchange ∧ second.KeepsExchange)
    (takesFirst : ∀ entry ∈ first.edit.entries, (Schema.ofFields api own).Takes entry)
    (takesSecond : ∀ entry ∈ second.edit.entries, (Schema.ofFields api own).Takes entry)
    (same : ∀ key, key ≠ "name" ∨ first.create = true →
      first.edit.get? key = second.edit.get? key)
    (stored : ∀ collab, held = some collab → collab.name = first.identifier ∧ collab.Formed) :
    first.verdict (Schema.ofFields api own) held =
      second.verdict (Schema.ofFields api own) held := by
  have known {edit : ResolvedEdit} (proper : edit.Proper (Schema.ofFields api own)) :
      ∀ key ∈ edit.edit.keys, ∃ field, (Schema.ofFields api own).find? key = some field := by
    intro key member
    obtain ⟨entry, inEdit, rfl⟩ := List.mem_map.1 member
    exact proper.known entry inEdit
  cases held with
  | none =>
    simp only [verdict, ← create, ← identifier]
    split
    next creates =>
      rw [Collab.construct_congr (fun key => same key (.inr creates)) (known left) (known right)]
    next => rfl
  | some existing =>
    obtain ⟨named, formed⟩ := stored existing rfl
    simp only [verdict, ← create, ← identifier]
    split
    next => rfl
    next notCreate =>
      split
      next sameApi =>
        have edits : first.create = false := by simpa using notCreate
        obtain ⟨after, ran, laid⟩ := Collab.assignAll_of_takes distinct.1 takesFirst
          (agrees_of_proper left distinct.1 keeps.1 edits named)
        obtain ⟨after', ran', under⟩ := Collab.assignAll_of_takes distinct.2 takesSecond
          (agrees_of_proper right distinct.2 keeps.2 (create ▸ edits) (named.trans identifier))
        -- The edits may list their entries in different orders, so only the records are compared.
        cases laid.unique formed under fun key notName => same key (.inl notName)
        rw [ran, ran']
      next => rfl

theorem verdict_fails {edit : ResolvedEdit} {key : String} {value : Json}
    (given : edit.edit.get? key = some value) (notName : key ≠ "name")
    (refused : ¬(Schema.ofFields api own).Takes (key, value)) :
    ∃ error, edit.verdict (Schema.ofFields api own) held = .error error := by
  have fails {result : Except ConfigError Collab} (lift : Collab → Outcome)
      (notOk : ∀ collab, result ≠ .ok collab) : ∃ error, result.map lift = .error error := by
    cases result with
    | ok collab => exact absurd rfl (notOk collab)
    | error error => exact ⟨error, rfl⟩
  cases held with
  | none =>
    rw [verdict]
    split
    · exact fails .created fun collab constructed =>
        refused (Collab.takes_of_construct constructed given notName)
    · exact ⟨_, rfl⟩
  | some existing =>
    rw [verdict]
    split
    · exact ⟨_, rfl⟩
    · split
      · exact fails .updated fun collab assigned =>
          refused (Collab.takes_of_assignAll assigned _ (EditSet.mem_of_lookup given))
      · exact ⟨_, rfl⟩

end ResolvedEdit

/-! Both forms on a database -/

namespace EditArgs

variable {api : String} {own : List Field} {fields : List EditableField} {name : String}
  {given : List (String × Json)}

section

variable (described : (Schema.ofFields api own).editableFields = .ok fields)
  (editable : ∀ entry ∈ given, entry.1 ∈ fields.map (·.name))
  (distinct : (given.map (·.1)).Nodup)

include described editable distinct

theorem mem_document {entry : String × Json} :
    entry ∈ document name given ↔ entry = ("name", .string name) ∨ entry ∈ given := by
  obtain ⟨-, apart⟩ := Schema.editable_names described
  obtain ⟨key, value⟩ := entry
  rw [← Ascending.find?_eq_some_iff (document_ascending name given),
    find?_document apart editable distinct]
  by_cases isName : key = "name"
  · subst isName
    have absent : ("name", value) ∉ given := fun member => by
      have none := lookup_common apart editable (show "name" ∈ commonNames by decide)
      rw [(EditSet.lookup_eq_some_iff distinct).2 member] at none
      cases none
    simp [absent, eq_comm]
  · simp [isName, EditSet.lookup_eq_some_iff distinct]

theorem permitted_document_iff :
    (∀ entry ∈ document name given, Permitted fields entry) ↔
      ∀ entry ∈ given, (Schema.ofFields api own).Takes entry := by
  constructor
  · intro permitted entry member
    exact takes_of_permitted described
      (permitted entry ((mem_document described editable distinct).2 (.inr member)))
  · intro takes entry member
    rcases (mem_document described editable distinct).1 member with rfl | inGiven
    · exact .inl ⟨.inl rfl, name, rfl⟩
    · obtain ⟨field, inFields, named⟩ := List.mem_map.1 (editable entry inGiven)
      obtain ⟨declared, found, same, -⟩ := Schema.find?_of_editable described inFields
      obtain ⟨there, takes, fits⟩ := takes entry inGiven
      rw [← named] at takes
      cases found.symm.trans takes
      exact .inr (.inr ⟨field, inFields, named, same ▸ fits⟩)

end

/-! The edits of the two forms -/

def flagEdit (api : String) (fields : List EditableField) (name : String) (create : Bool)
    (enable : Option Nat) (given : List (String × Json)) : ResolvedEdit :=
  ⟨name, .ofList ((byFlags name create enable given).layers api fields name []), create⟩

def documentEdit (api : String) (fields : List EditableField) (name text : String) (create : Bool)
    (enable : Option Nat) (given : List (String × Json)) : ResolvedEdit :=
  ⟨name, .ofList ((byDocument text create enable).layers api fields name (document name given)),
    create⟩

section

variable (names : (fields.map (·.name)).Nodup)

include names

theorem get?_flagEdit (create : Bool) (enable : Option Nat) (key : String) :
    (flagEdit api fields name create enable given).edit.get? key =
      (byFlags name create enable given).value? api fields name [] key := by
  have overlays : Overlays api fields (byFlags name create enable given) []
      (flagEdit api fields name create enable given) :=
    overlays_of_resolve names Ascending.nil rfl rfl
  exact overlays.value key

theorem get?_documentEdit (text : String) (create : Bool) (enable : Option Nat) (key : String) :
    (documentEdit api fields name text create enable given).edit.get? key =
      (byDocument text create enable).value? api fields name (document name given) key := by
  have overlays : Overlays api fields (byDocument text create enable) (document name given)
      (documentEdit api fields name text create enable given) :=
    overlays_of_resolve names (document_ascending name given) rfl rfl
  exact overlays.value key

end

theorem takes_flagEdit (takes : ∀ entry ∈ given, (Schema.ofFields api own).Takes entry)
    (create : Bool) (enable : Option Nat) :
    ∀ entry ∈ (flagEdit api fields name create enable given).edit.entries,
      (Schema.ofFields api own).Takes entry := by
  intro entry member
  rcases mem_layers (EditSet.mem_of_mem_ofList member) with none | identity | toggle | flag
  · cases none
  · exact takes_identity identity
  · exact takes_toggle toggle
  · obtain ⟨field, inFields, some⟩ := List.mem_filterMap.1 flag
    obtain ⟨value, found, rfl⟩ := Option.map_eq_some_iff.1 some
    exact takes _ (EditSet.mem_of_lookup found)

section

variable (described : (Schema.ofFields api own).editableFields = .ok fields)

include described

theorem resolve_byFlags (create : Bool) (enable : Option Nat) :
    (byFlags name create enable given).resolve api fields =
      .ok (flagEdit api fields name create enable given) := by
  obtain ⟨names, apart⟩ := Schema.editable_names described
  have starts : Starts fields (byFlags name create enable given) name [] := .plain rfl
  exact (resolve_eq_ok names apart).2 ⟨[], starts, rfl, rfl⟩

variable (editable : ∀ entry ∈ given, entry.1 ∈ fields.map (·.name))
  (distinct : (given.map (·.1)).Nodup)

include editable distinct

theorem resolve_byDocument_iff {text : String}
    (read : Json.read text = .ok (.object (document name given))) (create : Bool)
    (enable : Option Nat) {resolved : ResolvedEdit} :
    (byDocument text create enable).resolve api fields = .ok resolved ↔
      (∀ entry ∈ given, (Schema.ofFields api own).Takes entry) ∧
        resolved = documentEdit api fields name text create enable given := by
  obtain ⟨names, apart⟩ := Schema.editable_names described
  have permitted := @permitted_document_iff api own fields name given described editable distinct
  have named : Ascending.find? "name" (document name given) = some (.string name) := by
    rw [find?_document apart editable distinct, if_pos rfl]
  rw [resolve_eq_ok names apart]
  constructor
  · rintro ⟨entries, starts, edit, creates⟩
    obtain ⟨identifier, assignments, create'⟩ := resolved
    cases starts with
    | plain notDocument => cases notDocument
    | document _ found called allowed =>
      cases found.symm.trans read
      cases called.symm.trans named
      simp only at edit creates
      subst edit creates
      exact ⟨permitted.1 allowed, rfl⟩
  · rintro ⟨takes, rfl⟩
    exact ⟨_, .document rfl read named (permitted.2 takes), rfl, rfl⟩

theorem keepsExchange_forms (text : String) (create : Bool) (enable : Option Nat) :
    (flagEdit api fields name create enable given).KeepsExchange ∧
      (documentEdit api fields name text create enable given).KeepsExchange := by
  obtain ⟨names, apart⟩ := Schema.editable_names described
  have same := @values_agree api fields name given apart editable distinct text create enable "api"
    (.inl (by decide))
  have none (edits : create = false) :
      (byFlags name create enable given).value? api fields name [] "api" = none := by
    rw [value?, flag?_byFlags editable, lookup_common apart editable (by decide)]
    subst edits
    cases enable <;> rfl
  constructor
  · intro edits
    rw [get?_flagEdit names]
    exact none edits
  · intro edits
    rw [get?_documentEdit names, ← same]
    exact none edits

theorem verdicts_agree {text : String}
    (read : Json.read text = .ok (.object (document name given)))
    (takes : ∀ entry ∈ given, (Schema.ofFields api own).Takes entry) (create : Bool)
    (enable : Option Nat) {held : Option Collab}
    (stored : ∀ collab, held = some collab → collab.name = name ∧ collab.Formed) :
    (flagEdit api fields name create enable given).verdict (Schema.ofFields api own) held =
      (documentEdit api fields name text create enable given).verdict
        (Schema.ofFields api own) held := by
  obtain ⟨names, apart⟩ := Schema.editable_names described
  have resolves := (@resolve_byDocument_iff api own fields name given described editable distinct
    text read create enable _).2 ⟨takes, rfl⟩
  refine ResolvedEdit.verdict_congr rfl rfl
    (proper_of_resolve described (resolve_byFlags described create enable))
    (proper_of_resolve described resolves)
    ⟨EditSet.nodup_keys_ofList _, EditSet.nodup_keys_ofList _⟩
    (keepsExchange_forms described editable distinct text create enable)
    (takes_flagEdit takes create enable) (takes_of_document described rfl resolves)
    (fun key either => ?_) stored
  rw [get?_flagEdit names, get?_documentEdit names,
    values_agree apart editable distinct text create enable either]

theorem verdict_flagEdit_fails {entry : String × Json} (member : entry ∈ given)
    (refused : ¬(Schema.ofFields api own).Takes entry) (create : Bool) (enable : Option Nat)
    (held : Option Collab) :
    ∃ error, (flagEdit api fields name create enable given).verdict
      (Schema.ofFields api own) held = .error error := by
  obtain ⟨names, apart⟩ := Schema.editable_names described
  obtain ⟨key, value⟩ := entry
  have there := (EditSet.lookup_eq_some_iff distinct).2 member
  -- The name is not assigned to a new record, so the value must be one of another field.
  have notName : key ≠ "name" := by
    rintro rfl
    cases there.symm.trans (lookup_common apart editable (by decide))
  refine @ResolvedEdit.verdict_fails api own held _ key value ?_ notName refused
  rw [get?_flagEdit names, value?, flag?_byFlags editable, there, Option.some_or]

omit editable distinct in
theorem outcome_perform_of_resolve {args : EditArgs} {resolved : ResolvedEdit}
    (resolves : args.resolve api fields = .ok resolved) {database : Database}
    {rows : Table CollabRow} {result : Except StoreError (Option Collab)}
    (there : database.collabs = some rows)
    (search : outcome (collabStore.find? resolved.identifier) database = (result, database))
    (sought : Sought rows resolved.identifier result) :
    outcome (args.perform (Schema.ofFields api own) fields) database =
      database.settle rows (Schema.ofFields api own) resolved result := by
  have sameApi : (Schema.ofFields api own).api = api := rfl
  rw [outcome_perform, sameApi, resolves]
  exact outcome_apply there search sought (proper_of_resolve described resolves).titled

end

/-- The flag form and the document form of the same command both succeed, with the same outcome and
the same store, or both fail and leave the store as it was. Every payload without doubles that is
nested less than 128 deep has a text for its document form. -/
theorem forms_agree (described : (Schema.ofFields api own).editableFields = .ok fields)
    (name : String) (editable : ∀ entry ∈ given, entry.1 ∈ fields.map (·.name))
    (distinct : (given.map (·.1)).Nodup) (create : Bool) (enable : Option Nat)
    {database : Database} (authored : Authored database) :
    ((Json.object (document name given)).Exact → (Json.object (document name given)).depth < 128 →
      Json.read (Json.object (document name given)).text = .ok (.object (document name given))) ∧
    ∀ text, Json.read text = .ok (.object (document name given)) →
      (∃ done after,
        outcome ((byFlags name create enable given).perform (.ofFields api own) fields) database =
          (.ok done, after) ∧
        outcome ((byDocument text create enable).perform (.ofFields api own) fields) database =
          (.ok done, after)) ∨
      ∃ first second,
        outcome ((byFlags name create enable given).perform (.ofFields api own) fields) database =
          (.error first, database) ∧
        outcome ((byDocument text create enable).perform (.ofFields api own) fields) database =
          (.error second, database) := by
  refine ⟨fun exact_ shallow => Json.read_text exact_ (Nat.le_of_lt_succ shallow), ?_⟩
  intro text read
  obtain ⟨rows, result, there, search, sought⟩ := authored.titled.sought name
  have flags := @resolve_byFlags api own fields name given described create enable
  have documents {resolved : ResolvedEdit} := @resolve_byDocument_iff api own fields name given
    described editable distinct text read create enable resolved
  rw [outcome_perform_of_resolve described flags there search sought]
  -- The forms check the values at different stages, but against the same types.
  by_cases takes : ∀ entry ∈ given, (Schema.ofFields api own).Takes entry
  · have resolves := documents.2 ⟨takes, rfl⟩
    have same : database.settle rows (Schema.ofFields api own)
        (flagEdit api fields name create enable given) result =
      database.settle rows (Schema.ofFields api own)
        (documentEdit api fields name text create enable given) result :=
      Database.settle_congr sought fun held stored =>
        verdicts_agree described editable distinct read takes create enable stored
    rw [outcome_perform_of_resolve described resolves there search sought, ← same]
    rcases Database.settle_cases database rows (Schema.ofFields api own)
      (flagEdit api fields name create enable given) result with ⟨done, ran⟩ | ⟨error, ran⟩
    · exact .inl ⟨done, _, ran, ran⟩
    · exact .inr ⟨error, error, ran, ran⟩
  · right
    have refused : ∃ error, (byDocument text create enable).resolve api fields = .error error := by
      cases resolves : (byDocument text create enable).resolve api fields with
      | error error => exact ⟨error, rfl⟩
      | ok resolved => exact absurd (documents.1 resolves).1 takes
    obtain ⟨second, failed⟩ := refused
    obtain ⟨entry, rejected⟩ := not_forall.1 takes
    obtain ⟨member, misfit⟩ := Classical.not_imp.1 rejected
    obtain ⟨first, ran⟩ := Database.settle_of_fails database rows result fun held =>
      verdict_flagEdit_fails described editable distinct member misfit create enable held
    refine ⟨first, second, ran, ?_⟩
    rw [outcome_perform, show (Schema.ofFields api own).api = api from rfl, failed]

def priorityFive : List (String × Json) := [("priority", .integer 5)]

/-- A new record with one field of its own, by a flag and by a document. -/
theorem forms_agree_created : ∃ fields done after,
    (Schema.ofFields "demo" [{ name := "priority", type := .integer }]).editableFields =
      .ok fields ∧
    outcome ((byFlags "k" true none priorityFive).perform
      (.ofFields "demo" [{ name := "priority", type := .integer }]) fields) Database.empty =
        (.ok done, after) ∧
    outcome ((byDocument (Json.object (document "k" priorityFive)).text true none).perform
      (.ofFields "demo" [{ name := "priority", type := .integer }]) fields) Database.empty =
        (.ok done, after) := by
  have described : (Schema.ofFields "demo"
      [{ name := "priority", type := .integer }]).editableFields =
    .ok [Field.toEditable { name := "priority", type := .integer }] := rfl
  have editable : ∀ entry ∈ priorityFive, entry.1 ∈
      [Field.toEditable { name := "priority", type := .integer }].map (·.name) := by decide
  have exact_ : (Json.object (document "k" priorityFive)).Exact := by
    refine ⟨document_ascending _ _, ?_⟩
    change Json.ExactEntries [("name", .string "k"), ("priority", .integer 5)]
    simp [Json.ExactEntries, Json.Exact, Integer.FitsDocument, Integer.least,
      Integer.greatestUnsigned]
  have authored : Authored Database.empty := .start rfl
  obtain ⟨readable, agree⟩ := forms_agree described "k" editable (by decide) true none authored
  rcases agree _ (readable exact_ (by decide)) with ⟨done, after, flags, text⟩ | ⟨_, _, failed, _⟩
  · exact ⟨_, done, after, described, flags, text⟩
  · have created : ∃ done after, outcome ((byFlags "k" true none priorityFive).perform
        (.ofFields "demo" [{ name := "priority", type := .integer }])
        [Field.toEditable { name := "priority", type := .integer }]) Database.empty =
          (.ok done, after) := ⟨_, _, rfl⟩
    obtain ⟨done, after, ran⟩ := created
    cases ran.symm.trans failed

end EditArgs

end SignalExchange
