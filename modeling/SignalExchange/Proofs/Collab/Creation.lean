import Mathlib.Data.List.Find
import SignalExchange.Proofs.Collab.Construction
import SignalExchange.Proofs.Collab.Reliable
import SignalExchange.Proofs.Edit.Surface

/-! Commands that create records.

A command can give values to editable fields only, so what it has to give is marked on those. A
field that is not editable and has no default is beyond its reach, and then no record is made.
-/

set_option autoImplicit false

namespace SignalExchange

open Call

/-- A field that has to be given, though no command can give it. -/
def Field.outOfReach (field : Field) : Bool :=
  field.name ≠ "name" && field.name ≠ "api" && !field.editable && field.default.isNone

/-- The first such field in the order of the schema. -/
def Schema.outOfReach? (schema : Schema) : Option Field := schema.fields.find? Field.outOfReach

namespace EditArgs

/-- The flag of the field, or else the document, gives the field a value. -/
def Gives (args : EditArgs) (document : List (String × Json)) (field : EditableField) : Prop :=
  ∃ value, EditSet.lookup field.name args.fields = some value ∨
    Ascending.find? field.name document = some value

/-- A command to create a record, with values of the right types and among them one for every field
that is marked as required. -/
structure Filled (fields : List EditableField) (args : EditArgs) (identifier : String)
    (document : List (String × Json)) : Prop where
  create : args.create = true
  starts : Starts fields args identifier document
  named : identifier ≠ ""
  fits : ∀ field ∈ fields, ∀ value, EditSet.lookup field.name args.fields = some value →
    field.type.Accepts value
  complete : ∀ field ∈ fields, field.isRequired = true → args.Gives document field

section

variable {api : String} {own : List Field} {fields : List EditableField} {args : EditArgs}
  {identifier : String} {document : List (String × Json)}

def edit (api : String) (fields : List EditableField) (args : EditArgs) (identifier : String)
    (document : List (String × Json)) : ResolvedEdit :=
  ⟨identifier, .ofList (args.layers api fields identifier document), args.create⟩

theorem lookup_of_common {key : String} (own : key ∉ commonNames) {entries : List (String × Json)}
    (common : ∀ entry ∈ entries, entry.1 ∈ commonNames) : EditSet.lookup key entries = none := by
  refine EditSet.lookup_eq_none fun member => ?_
  obtain ⟨entry, inEntries, rfl⟩ := List.mem_map.1 member
  exact own (common entry inEntries)

theorem value?_eq_none (starts : Starts fields args identifier document) {key : String}
    (own : key ∉ commonNames) (fixed : key ∉ fields.map (·.name)) :
    args.value? api fields identifier document key = none := by
  have flag : args.flag? fields key = none := if_neg fixed
  have toggle : EditSet.lookup key args.toggle = none := by
    refine lookup_of_common own fun entry member => ?_
    obtain ⟨enabled, rfl⟩ := mem_toggle member
    simp [mem_commonNames]
  have identity : EditSet.lookup key (args.identity api identifier) = none := by
    refine lookup_of_common own fun entry member => ?_
    rcases mem_identity member with rfl | rfl | rfl <;> simp [mem_commonNames]
  have given : Ascending.find? key document = none := by
    cases found : Ascending.find? key document with
    | none => rfl
    | some value =>
      have member := (Ascending.find?_eq_some_iff starts.ascending key value).1 found
      rcases starts.permitted _ member with ⟨rfl | rfl, -⟩ | ⟨rfl, -⟩ | ⟨field, inFields, rfl, -⟩
      · exact absurd (by decide) own
      · exact absurd (by decide) own
      · exact absurd (by decide) own
      · exact absurd (List.mem_map_of_mem inFields) fixed
  rw [value?, flag, toggle, identity, given]
  rfl

theorem value?_isSome {field : EditableField} (member : field ∈ fields)
    (gives : args.Gives document field) :
    (args.value? api fields identifier document field.name).isSome = true := by
  rw [value?, flag?, if_pos (List.mem_map_of_mem member)]
  obtain ⟨value, flag | entry⟩ := gives
  · simp [flag]
  · simp [entry]

variable (described : (Schema.ofFields api own).editableFields = .ok fields)

include described

theorem resolve_of_starts (starts : Starts fields args identifier document) :
    args.resolve api fields = .ok (args.edit api fields identifier document) := by
  obtain ⟨names, apart⟩ := Schema.editable_names described
  exact (resolve_eq_ok names apart).2 ⟨document, starts, rfl, rfl⟩

theorem get?_edit (starts : Starts fields args identifier document) (key : String) :
    (args.edit api fields identifier document).edit.get? key =
      args.value? api fields identifier document key := by
  obtain ⟨names, -⟩ := Schema.editable_names described
  exact (overlays_of_resolve names starts.ascending rfl rfl).value key

namespace Filled

variable (filled : Filled fields args identifier document)

include filled

theorem takes : ∀ entry ∈ (args.edit api fields identifier document).edit.entries,
    (Schema.ofFields api own).Takes entry := by
  intro entry member
  rcases mem_layers (EditSet.mem_of_mem_ofList member) with given | identity | toggle | flag
  · exact takes_of_permitted described (filled.starts.permitted entry given)
  · exact takes_identity identity
  · exact takes_toggle toggle
  · obtain ⟨field, inFields, given⟩ := List.mem_filterMap.1 flag
    obtain ⟨value, there, rfl⟩ := Option.map_eq_some_iff.1 given
    obtain ⟨declared, found, same, -⟩ := Schema.find?_of_editable described inFields
    exact ⟨declared, found, same ▸ filled.fits field inFields value there⟩

theorem acceptable : Collab.Acceptable (Schema.ofFields api own)
    (args.edit api fields identifier document).edit identifier := by
  obtain ⟨-, distinct, -⟩ := Schema.editableFields_eq_ok.1 described
  obtain ⟨-, apart⟩ := Schema.editable_names described
  have proper := proper_of_resolve described (resolve_of_starts described filled.starts)
  refine ⟨fun key member => ?_, proper.titled filled.create, filled.named, fun value given => ?_,
    fun field member _ _ value given => ?_⟩
  · obtain ⟨entry, inEdit, rfl⟩ := List.mem_map.1 member
    exact proper.known entry inEdit
  · -- A new record is given the exchange after the document, so that of a document is not used.
    have bound : (args.edit api fields identifier document).edit.get? "api" =
        some (.string api) := by
      rw [get?_edit described filled.starts, value?, flag?_common apart (by decide), identity,
        toggle, if_pos filled.create]
      cases args.enable <;> rfl
    exact (Option.some.inj (bound.symm.trans given)).symm
  · exact Schema.accepts_of_takes distinct member
      (filled.takes described _ (EditSet.mem_of_lookup given))

theorem isNone_get? {field : Field} (member : field ∈ (Schema.ofFields api own).fields)
    (notName : field.name ≠ "name") (notApi : field.name ≠ "api") (bare : field.default = none) :
    ((args.edit api fields identifier document).edit.get? field.name).isNone =
      !field.editable := by
  obtain ⟨-, distinct, rfl⟩ := Schema.editableFields_eq_ok.1 described
  rw [get?_edit described filled.starts]
  cases editable : field.editable with
  | true =>
    have offered : field.toEditable ∈
        ((Schema.ofFields api own).fields.filter (·.editable)).map Field.toEditable :=
      List.mem_map_of_mem (List.mem_filter.2 ⟨member, editable⟩)
    have required : field.toEditable.isRequired = true := by
      simp [EditableField.isRequired, Field.toEditable, bare]
    rw [Bool.not_true, Option.isNone_eq_false_iff]
    exact value?_isSome offered (filled.complete _ offered required)
  | false =>
    have notEnabled : field.name ≠ "enabled" := by
      intro same
      cases (Schema.find?_eq_some_iff distinct).2 ⟨member, same⟩
      cases bare
    have notCommon : field.name ∉ commonNames := by
      simp [mem_commonNames, notName, notApi, notEnabled]
    rw [value?_eq_none filled.starts notCommon fun offered => ?_]
    · rfl
    · obtain ⟨other, inFields, same⟩ := List.mem_map.1 offered
      obtain ⟨declared, inSchema, rfl⟩ := List.mem_map.1 inFields
      cases List.inj_on_of_nodup_map distinct (List.mem_of_mem_filter inSchema) member same
      exact absurd editable (by simpa using (List.mem_filter.1 inSchema).2)

theorem missing?_eq : Collab.missing? (Schema.ofFields api own)
    (args.edit api fields identifier document).edit = (Schema.ofFields api own).outOfReach? := by
  refine List.find?_congr fun field member => ?_
  by_cases notName : field.name = "name"
  · simp [Collab.lacks, Field.outOfReach, notName]
  by_cases notApi : field.name = "api"
  · simp [Collab.lacks, Field.outOfReach, notApi]
  cases bare : field.default with
  | some value => simp [Collab.lacks, Field.outOfReach, bare]
  | none =>
    simp [Collab.lacks, Field.outOfReach, notName, notApi, bare,
      filled.isNone_get? described member notName notApi bare]

theorem verdict :
    (args.edit api fields identifier document).verdict (Schema.ofFields api own) none =
    match (Schema.ofFields api own).outOfReach? with
    | none => .ok (.created (Collab.newRecord (Schema.ofFields api own)
        (args.edit api fields identifier document).edit identifier))
    | some field => .error (.missingField field.name) := by
  have acceptable := filled.acceptable described
  have missing := filled.missing?_eq described
  have create : (args.edit api fields identifier document).create = true := filled.create
  -- Everything that is given can be used, so the record is made unless a field is missing.
  rw [ResolvedEdit.verdict, if_pos create]
  cases reach : (Schema.ofFields api own).outOfReach? with
  | none =>
    rw [Collab.construct_of_acceptable described acceptable (missing.trans reach)]
    rfl
  | some field =>
    rw [Collab.construct_of_missing described acceptable (missing.trans reach)]
    rfl

end Filled

end

end EditArgs

section

variable {api : String} {own : List Field} {fields : List EditableField} {args : EditArgs}
  {identifier : String} {document : List (String × Json)}
  (described : (Schema.ofFields api own).editableFields = .ok fields)
  (filled : args.Filled fields identifier document)

include described filled

theorem outcome_filled {σ : Type} {store : CollabStore (StateM σ)} {view : RecordView σ}
    (reliable : store.Reliable view) {state : σ} (ready : view.ready state)
    (within : (args.edit api fields identifier document).Within view.fits (.ofFields api own))
    (free : view.held state identifier = none) :
    ∃ after, outcome (store.apply (.ofFields api own) (args.edit api fields identifier document))
        state = ((args.edit api fields identifier document).verdict (.ofFields api own) none,
          after) ∧
      view.Settles (store.afterSearch identifier state) after
        ((args.edit api fields identifier document).verdict (.ofFields api own) none) := by
  have resolved := EditArgs.resolve_of_starts described filled.starts
  have proper := EditArgs.proper_of_resolve described resolved
  have run := outcome_of_verdict reliable ready (args.edit api fields identifier document) within
    (fun _ found => nomatch free.symm.trans found) proper.titled
  rwa [show view.held state (args.edit api fields identifier document).identifier = none
    from free] at run

/-- What the database makes of the command, even of values that it does not give back. -/
theorem Database.outcome_filled {database : Database} {rows : Table CollabRow}
    (there : database.collabs = some rows) (free : Ascending.find? identifier rows = none) :
    outcome (collabStore.apply (.ofFields api own) (args.edit api fields identifier document))
        database =
      database.settle rows (.ofFields api own) (args.edit api fields identifier document)
        (.ok none) := by
  have resolved := EditArgs.resolve_of_starts described filled.starts
  have proper := EditArgs.proper_of_resolve described resolved
  have search : outcome (collabStore.find? identifier) database = (.ok none, database) := by
    change outcome (findCollab identifier) database = _
    rw [findCollab, outcome_bind, outcome_collabRows_of_some there]
    simp [free]
  exact Database.outcome_apply there search (.absent free) proper.titled

end

/-- A command with all values that are marked as required creates its record exactly when no field
is beyond its reach. Otherwise the first such field is missing, and nothing is written. The database
need not be able to give the record back. -/
theorem create_within_reach {api : String} {own : List Field} {fields : List EditableField}
    (described : (Schema.ofFields api own).editableFields = .ok fields) {surface : Surface}
    (built : Surface.build api fields = .ok surface) {args : EditArgs} {identifier : String}
    {document : List (String × Json)}
    (filled : args.Filled surface.fields identifier document) :
    ∃ resolved, args.resolve api surface.fields = .ok resolved ∧
      (∀ {σ : Type} {store : CollabStore (StateM σ)} {view : RecordView σ}, store.Reliable view →
        resolved.Within view.fits (.ofFields api own) →
        ∀ {state : σ}, view.ready state → view.held state identifier = none →
        ((∃ done after, outcome (store.apply (.ofFields api own) resolved) state =
            (.ok done, after)) ↔ (Schema.ofFields api own).outOfReach? = none) ∧
        (∀ done after, outcome (store.apply (.ofFields api own) resolved) state =
            (.ok done, after) →
          done = .created (Collab.newRecord (.ofFields api own) resolved.edit identifier) ∧
          view.held after identifier = some done.collab ∧
          ∀ other ≠ identifier, view.held after other = view.held state other) ∧
        ∀ field, (Schema.ofFields api own).outOfReach? = some field →
          ∃ after, outcome (store.apply (.ofFields api own) resolved) state =
              (.error (.missingField field.name), after) ∧
            after = store.afterSearch identifier state ∧ view.held after = view.held state) ∧
      ∀ {database : Database} {rows : Table CollabRow}, database.collabs = some rows →
        Ascending.find? identifier rows = none →
        outcome (Database.collabStore.apply (.ofFields api own) resolved) database =
          match (Schema.ofFields api own).outOfReach? with
          | none => (.ok (.created (Collab.newRecord (.ofFields api own) resolved.edit identifier)),
              database.withRecord rows
                (Collab.newRecord (.ofFields api own) resolved.edit identifier))
          | some field => (.error (.missingField field.name), database) := by
  obtain ⟨-, rfl⟩ := Surface.build_eq_ok.1 built
  have verdict := filled.verdict described
  refine ⟨_, EditArgs.resolve_of_starts described filled.starts, ?_, ?_⟩
  -- A store that gives back what it was given goes by the verdict on no record.
  · intro σ store view reliable within state ready free
    obtain ⟨left, ran, settles⟩ := outcome_filled described filled reliable ready within free
    rw [verdict] at ran settles
    cases reach : (Schema.ofFields api own).outOfReach? with
    | none =>
      rw [reach] at ran settles
      refine ⟨⟨fun _ => rfl, fun _ => ⟨_, left, ran⟩⟩, fun done after succeeded => ?_, nofun⟩
      cases ran.symm.trans succeeded
      exact ⟨rfl, held_of_settles reliable ready settles⟩
    | some field =>
      rw [reach] at ran settles
      refine ⟨⟨?_, nofun⟩, fun done after succeeded => ?_, fun other same => ?_⟩
      · rintro ⟨done, after, succeeded⟩
        cases ran.symm.trans succeeded
      · cases ran.symm.trans succeeded
      · cases same
        exact ⟨left, ran, unchanged_of_settles reliable ready settles⟩
  -- The database goes by the same verdict, whatever becomes of the values in its rows.
  · intro database rows there free
    rw [Database.outcome_filled described filled there free, Database.settle, Except.mapError,
      Except.ok_bind, verdict]
    cases (Schema.ofFields api own).outOfReach? <;> rfl

/-- A field that has to be given, and one that has a default though no flag can set it. -/
def reachableFields : List Field :=
  [{ name := "priority", type := .integer },
   { name := "owner", type := .text, default := some (.string "-"), editable := false }]

def createReachable : EditArgs := ⟨"c", true, none, false, [("priority", .integer 1)]⟩

/-- The record is created in memory and in the database. -/
theorem create_reachable : ∃ fields surface resolved done after,
    (Schema.ofFields "demo" reachableFields).editableFields = .ok fields ∧
    Surface.build "demo" fields = .ok surface ∧
    createReachable.resolve "demo" surface.fields = .ok resolved ∧
    outcome (RecordTable.store.apply (.ofFields "demo" reachableFields) resolved)
      .empty = (.ok done, after) ∧
    after.find? "c" = some
      ⟨"c", "demo", true, .ofList [("owner", .string "-"), ("priority", .integer 1)]⟩ ∧
    outcome (Database.collabStore.apply (.ofFields "demo" reachableFields) resolved)
      Database.empty = (.ok done, Database.empty.withRecord [] done.collab) := by
  have described : (Schema.ofFields "demo" reachableFields).editableFields =
    .ok [Field.toEditable { name := "priority", type := .integer }] := rfl
  have built : Surface.build "demo" [Field.toEditable { name := "priority", type := .integer }] =
    .ok ⟨"demo", _, Surface.commandFor "demo" _⟩ := rfl
  have filled : createReachable.Filled
      [Field.toEditable { name := "priority", type := .integer }] "c" [] := by
    refine ⟨rfl, .plain rfl, by decide, ?_, ?_⟩
    · simp [createReachable, EditSet.lookup, Field.toEditable, FieldType.integer_accepts_iff,
        Integer.InRange, Integer.least, Integer.greatest]
    · simp [EditArgs.Gives, createReachable, EditSet.lookup, Field.toEditable]
  obtain ⟨resolved, resolves, inMemory, inDatabase⟩ := create_within_reach described built filled
  obtain ⟨⟨-, succeeds⟩, creates, -⟩ := @inMemory _ _ _ RecordTable.store_reliable .total
    .empty trivial rfl
  obtain ⟨done, after, ran⟩ := succeeds rfl
  obtain ⟨rfl, written, -⟩ := creates done after ran
  have stored := @inDatabase Database.empty [] rfl rfl
  cases resolves
  exact ⟨_, _, _, _, after, described, built, rfl, ran, written, stored⟩

/-- Nothing but the name is required of this command, and still a field is missing. -/
theorem required_marks_insufficient : ∃ fields surface resolved,
    (Schema.ofFields "demo"
      [{ name := "computed", type := .integer, editable := false }]).editableFields =
        .ok fields ∧
    Surface.build "demo" fields = .ok surface ∧
    (⟨"c", true, none, false, []⟩ : EditArgs).Filled surface.fields "c" [] ∧
    RecordTable.store.Reliable RecordTable.view ∧
    AscendingMap.find? (.empty : RecordTable) "c" = none ∧
    (⟨"c", true, none, false, []⟩ : EditArgs).resolve "demo" surface.fields = .ok resolved ∧
    outcome (RecordTable.store.apply (.ofFields "demo"
        [{ name := "computed", type := .integer, editable := false }]) resolved)
      .empty = (.error (.missingField "computed"), .empty) :=
  ⟨[], _, _, rfl, rfl, ⟨rfl, .plain rfl, by decide, nofun, nofun⟩, RecordTable.store_reliable, rfl,
    rfl, rfl⟩

end SignalExchange
